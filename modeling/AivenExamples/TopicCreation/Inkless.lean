import AivenExamples.TopicCreation.Classic

/-! The topics that are created without disks from the description of a source cluster. -/

namespace AivenExamples.TopicCreation

open Regex Fields

/-! ### Script -/

/-- An option of `avn service topic-create` in the script for topics without disks. -/
inductive InklessOption where
  /-- `--partitions` -/
  | partitions (count : List Char)
  /-- `--diskless-enable` -/
  | disklessEnable
  /-- `--replication` -/
  | replication (factor : List Char)
  /-- `--retention-bytes` -/
  | retentionBytes (bytes : List Char)
  /-- `--retention`, in hours. -/
  | retention (hours : List Char)
  deriving DecidableEq

/-- A call of `avn service topic-create` for a topic without disks. -/
structure InklessCreate where
  service : List Char
  topic : List Char
  options : List InklessOption
  deriving DecidableEq

/-- The command for a header line in `create_topics_inkless.sh`. -/
def createInklessCommand (serviceName line : List Char) : InklessCreate :=
  let topic := topicOf line
  let partitions := sed ".*PartitionCount: \\([0-9]*\\).*".toList line
  -- `MAX_MSG` is cut out in the same way, but the command does not use it.
  let retention := sed ".*retention.bytes=\\([0-9]*\\).*".toList line
  { service := serviceName
    topic := topic
    options := [.partitions partitions, .disklessEnable, .replication "1".toList] ++
      if retention ≠ [] then [.retentionBytes retention, .retention "72".toList] else [] }

/-- The commands for the lines of a description in `create_topics_inkless.sh`. -/
def createInklessTopics (inputFile : List (List Char)) (serviceName : List Char) :
    List InklessCreate :=
  ((inputFile.filter (grep "^Topic:".toList)).filter (grep "Configs:".toList)).map fun line =>
    createInklessCommand serviceName (trim line)

/-! ### Purpose -/

/-- What a topic without disks keeps of the topic on the source. -/
structure CarriesInkless (command : InklessCreate) (header : Header) : Prop where
  partitions : ∀ count, .partitions count ∈ command.options ↔ count = decimal header.partitionCount
  disklessEnable : .disklessEnable ∈ command.options
  -- The copies of a topic without disks are up to the object store.
  replication : ∀ factor, .replication factor ∈ command.options ↔ factor = "1".toList
  retentionBytes : ∀ bytes, .retentionBytes bytes ∈ command.options ↔
    bytes ≠ [] ∧ IsLeading "retention.bytes".toList .digit header.configs bytes
  -- Time limits of the source do not count, and there is one only beside a limit in bytes.
  retention : ∀ hours, .retention hours ∈ command.options ↔
    hours = "72".toList ∧ ∃ bytes, .retentionBytes bytes ∈ command.options

/-! ### Both scripts -/

/-- What becomes of an option for a topic with disks. -/
def inklessOptions : Flag × List Char → List InklessOption
  | (.partitions, count) => [.partitions count]
  | (.cleanupPolicy, _) => [.disklessEnable]
  | (.replication, _) => [.replication "1".toList]
  | (.retentionBytes, bytes) => [.retentionBytes bytes, .retention "72".toList]
  | (.property, _) => []

/-- What becomes of a command for a topic with disks. -/
def TopicCreate.inkless (command : TopicCreate) : InklessCreate where
  service := command.service
  topic := command.topic
  options := command.options.flatMap inklessOptions

/-- For any line the command is the one with disks, where the options are replaced. -/
theorem createInklessCommand_eq (serviceName line : List Char) :
    createInklessCommand serviceName line = (createCommand serviceName line).inkless := by
  -- Both cut the retention out of the line in the same way.
  rw [createInklessCommand, createCommand, TopicCreate.inkless]
  by_cases retention : sed ".*retention.bytes=\\([0-9]*\\).*".toList line = []
  · simp only [retention, ne_eq, not_true_eq_false, if_false, List.append_nil]
    rfl
  · simp only [retention, ne_eq, not_false_eq_true, if_true]
    rfl

/-- For any file the commands are those with disks, where the options are replaced. -/
theorem createInklessTopics_eq (inputFile : List (List Char)) (serviceName : List Char) :
    createInklessTopics inputFile serviceName =
      (createTopics inputFile serviceName).map TopicCreate.inkless := by
  rw [createInklessTopics, createTopics, List.map_map]
  exact List.map_congr_left fun line _ => createInklessCommand_eq serviceName (trim line)

/-! ### Topics of a description -/

/-- The command for the line of a header without disks. -/
theorem createInklessCommand_line (serviceName : List Char) (header : Header) :
    createInklessCommand serviceName (trim header.line) =
      { service := serviceName
        topic := header.topic.name
        options := [.partitions (decimal header.partitionCount), .disklessEnable,
          .replication "1".toList] ++
            if cut "retention.bytes".toList .digit header.configs ≠ [] then
              [.retentionBytes (cut "retention.bytes".toList .digit header.configs),
                .retention "72".toList]
            else [] } := by
  -- The options of the command with disks are replaced one by one.
  rw [createInklessCommand_eq, createCommand_line, TopicCreate.inkless]
  split
  · rfl
  · rfl

/-- What is cut out is not empty exactly when the last setting of the name begins with it. -/
theorem cut_eq_iff {name value : List Char} {set : CharSet} {configs : List Config}
    (some : value ≠ []) : cut name set configs = value ↔ IsLeading name set configs value := by
  -- Without a setting of the name nothing is cut out.
  rw [cut, IsLeading]
  cases lastNamed name configs with
  | none => simp [some.symm]
  | some config => simp [eq_comm]

/-- The options that are in a command, where the ones for the retention depend on a text. -/
theorem mem_options {option : InklessOption} {count factor hours bytes : List Char} :
    option ∈ [.partitions count, .disklessEnable, .replication factor] ++
      (if bytes ≠ [] then [.retentionBytes bytes, .retention hours] else []) ↔
    option = .partitions count ∨ option = .disklessEnable ∨ option = .replication factor ∨
      bytes ≠ [] ∧ (option = .retentionBytes bytes ∨ option = .retention hours) := by
  -- The retention is there with its hours, or not at all.
  split
  · rename_i some
    simp [some]
  · rename_i none
    simp [none]

/-- The command for the line of a header carries over what a topic without disks keeps. -/
theorem carriesInkless (serviceName : List Char) (header : Header) :
    CarriesInkless (createInklessCommand serviceName (trim header.line)) header := by
  -- Only the retention depends on the settings of the topic.
  have leading (bytes : List Char) : bytes ≠ [] ∧
      IsLeading "retention.bytes".toList .digit header.configs bytes ↔
      cut "retention.bytes".toList .digit header.configs ≠ [] ∧
        bytes = cut "retention.bytes".toList .digit header.configs := by
    constructor
    · intro both
      have same := (cut_eq_iff both.1).mpr both.2
      exact ⟨same ▸ both.1, same.symm⟩
    · intro both
      exact ⟨both.2 ▸ both.1, (cut_eq_iff (both.2 ▸ both.1)).mp both.2.symm⟩
  rw [createInklessCommand_line]
  generalize cut "retention.bytes".toList .digit header.configs = bytes at leading
  constructor
  · intro count
    simp only [mem_options, reduceCtorEq, InklessOption.partitions.injEq, or_false, and_false]
  · simp only [mem_options, reduceCtorEq, false_or, true_or]
  · intro factor
    simp only [mem_options, reduceCtorEq, InklessOption.replication.injEq, false_or, or_false,
      and_false]
  · intro other
    simp only [mem_options, reduceCtorEq, InklessOption.retentionBytes.injEq, false_or, or_false,
      leading]
  · intro hours
    simp only [mem_options, reduceCtorEq, InklessOption.retention.injEq,
      InklessOption.retentionBytes.injEq, false_or, or_false, exists_and_left, exists_eq, and_true]
    exact and_comm

/-- Every topic of a description is created once without disks, in their order and no others. -/
theorem inkless_recreated (dump : Dump) (serviceName : List Char) :
    ((createInklessTopics (dump.lines.map Line.text) serviceName).map fun command =>
      command.topic) = ((headers dump.lines).map fun header => header.topic.name) ∧
    ∀ header ∈ headers dump.lines, ∃ command,
      (createInklessTopics (dump.lines.map Line.text) serviceName).filter
        (fun command => command.topic = header.topic.name) = [command] ∧
      CarriesInkless command header := by
  -- The commands are made of the lines of the headers, whose topics are distinct.
  have commands : createInklessTopics (dump.lines.map Line.text) serviceName =
      (headers dump.lines).map fun header =>
        createInklessCommand serviceName (trim header.line) := by
    rw [createInklessTopics_eq, createTopics_lines, List.map_map]
    exact List.map_congr_left fun header _ => (createInklessCommand_eq serviceName _).symm
  have topic (header : Header) :
      (createInklessCommand serviceName (trim header.line)).topic = header.topic.name := by
    rw [createInklessCommand_line]
  rw [commands, List.map_map]
  refine ⟨List.map_congr_left fun header _ => topic header, fun header member => ?_⟩
  have alone : (headers dump.lines).filter ((fun command : InklessCreate =>
      decide (command.topic = header.topic.name)) ∘ fun header =>
        createInklessCommand serviceName (trim header.line)) = [header] := by
    simp only [Function.comp_def, topic]
    exact filter_distinct dump.distinct member
  rw [List.filter_map, alone, List.map_singleton]
  exact ⟨_, rfl, carriesInkless serviceName header⟩

end AivenExamples.TopicCreation
