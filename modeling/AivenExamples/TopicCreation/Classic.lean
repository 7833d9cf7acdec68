import AivenExamples.Data.Extraction
import AivenExamples.Data.Fields
import AivenExamples.Data.TopicName
import Mathlib.Data.List.TakeWhile

/-! The topics that are created again from the description of a source cluster. -/

namespace AivenExamples.TopicCreation

open Regex Fields

/-! ### Script -/

/-- The options of `avn service topic-create` that the script speaks of. -/
inductive Flag where
  /-- `--partitions` -/
  | partitions
  /-- `--cleanup-policy` -/
  | cleanupPolicy
  /-- `--replication` -/
  | replication
  /-- `--retention-bytes` -/
  | retentionBytes
  /-- `-c`, for a property of the topic by its name. -/
  | property
  deriving DecidableEq

/-- A call of `avn service topic-create`. -/
structure TopicCreate where
  service : List Char
  topic : List Char
  options : List (Flag × List Char)
  deriving DecidableEq

/-- `grep expression`, for a line. -/
def grep (expression line : List Char) : Bool :=
  ((parse .basic expression).bind fun parts => search parts line).isSome

/-- `sed -n 's/expression/\1/p'`, for a line. -/
def sed (expression line : List Char) : List Char :=
  ((parse .basic expression).bind fun parts => substituteGroup parts line).getD []

/-- In front of the name of a topic. -/
def topicLabel : List Char := "Topic:".toList

/-- The fields of a line that come directly behind a field `Topic:`. -/
def behindTopic : List (List Char) → List (List Char)
  | [] => []
  | word :: words =>
    if word = topicLabel then words.headD [] :: behindTopic words else behindTopic words

/-- `$(…)`: what was printed without the line ends behind it. -/
def substitution (printed : List Char) : List Char :=
  (printed.reverse.dropWhile (· = '\n')).reverse

/-- The topic name that `awk` prints for a line. -/
def topicOf (line : List Char) : List Char :=
  substitution ((behindTopic (fields line)).flatMap fun word => word ++ ['\n'])

/-- The command for a header line. -/
def createCommand (serviceName line : List Char) : TopicCreate :=
  let topic := topicOf line
  let partitions := sed ".*PartitionCount: \\([0-9]*\\).*".toList line
  let replication := sed ".*ReplicationFactor: \\([0-9]*\\).*".toList line
  let cleanupPolicy := sed ".*cleanup.policy=\\([a-z]*\\).*".toList line
  -- `MAX_MSG` is cut out in the same way, but the command does not use it.
  let retention := sed ".*retention.bytes=\\([0-9]*\\).*".toList line
  { service := serviceName
    topic := topic
    options := [(.partitions, partitions), (.cleanupPolicy, cleanupPolicy),
      (.replication, replication)] ++
        if retention ≠ [] then [(.retentionBytes, retention)] else [] }

/-- The commands for the lines of a description. -/
def createTopics (inputFile : List (List Char)) (serviceName : List Char) : List TopicCreate :=
  ((inputFile.filter (grep "^Topic:".toList)).filter (grep "Configs:".toList)).map fun line =>
    createCommand serviceName (trim line)

/-! ### Descriptions -/

/-- A number in decimal notation. -/
def decimal (number : Nat) : List Char := Nat.toDigits 10 number

/-- The setting of a topic config; no config of Kafka has only the last word of another's name. -/
structure Config where
  key : List Char
  value : List Char
  plainKey : ∀ char ∈ key, isBlank char = false ∧ char ∉ ['\n', '=', ',']
  notPolicy : key ≠ "policy".toList
  notBytes : key ≠ "bytes".toList
  plainValue : ∀ char ∈ value, isBlank char = false ∧ char ∉ ['\n', '=']

/-- The text of a setting. -/
def Config.text (config : Config) : List Char := config.key ++ '=' :: config.value

/-- What `kafka-topics.sh --describe` says about a topic as a whole. -/
structure Header where
  topic : TopicName
  -- The characters of an id are legal in a name as well.
  topicId : Option TopicName
  partitionCount : Nat
  replicationFactor : Nat
  configs : List Config

/-- In front of the id of a topic. -/
def idLabel : List Char := "TopicId:".toList

/-- In front of the number of partitions. -/
def countLabel : List Char := "PartitionCount:".toList

/-- In front of the replication factor. -/
def factorLabel : List Char := "ReplicationFactor:".toList

/-- In front of the settings. -/
def configsLabel : List Char := "Configs:".toList

/-- The id of a topic in the line of its header. -/
def Header.idText (header : Header) : List Char :=
  (header.topicId.map fun id => idLabel ++ ' ' :: (id.name ++ ['\t'])).getD []

/-- The start of the line of a header. -/
def Header.topicText (header : Header) : List Char :=
  topicLabel ++ ' ' :: (header.topic.name ++ '\t' :: header.idText)

/-- The end of the line from the replication factor on. -/
def Header.factorText (header : Header) (rest : List Char) : List Char :=
  factorLabel ++ ' ' :: (decimal header.replicationFactor ++ '\t' ::
    (configsLabel ++ rest))

/-- The line of a header, which has its settings at the end. -/
def Header.text (header : Header) (rest : List Char) : List Char :=
  header.topicText ++ (countLabel ++ ' ' :: (decimal header.partitionCount ++ '\t' ::
    header.factorText rest))

/-- The line of a header, where the settings are a list with commas. -/
def Header.line (header : Header) : List Char :=
  header.text (' ' :: [','].intercalate (header.configs.map Config.text))

/-- A line of a description. -/
inductive Line where
  | topic (header : Header)
  | other (content : List Char) (noTopic : ¬topicLabel <+: content)

/-- The text of a line. -/
def Line.text : Line → List Char
  | .topic header => header.line
  | .other content _ => content

/-- The headers in a description. -/
def headers (lines : List Line) : List Header := lines.filterMap fun line =>
  match line with
  | .topic header => some header
  | .other .. => none

/-- A description, with one header for each of its topics. -/
structure Dump where
  lines : List Line
  distinct : ((headers lines).map fun header => header.topic.name).Nodup

/-! ### Settings that are kept -/

/-- The command sets up a topic as it is on the source. -/
structure Carries (command : TopicCreate) (header : Header) : Prop where
  partitions : (.partitions, decimal header.partitionCount) ∈ command.options
  replication : (.replication, decimal header.replicationFactor) ∈ command.options
  -- Settings only count where the source topic has them.
  cleanupPolicy : ∀ config ∈ header.configs, config.key = "cleanup.policy".toList →
    (.cleanupPolicy, config.value) ∈ command.options
  retention : ∀ config ∈ header.configs, config.key = "retention.bytes".toList →
    (.retentionBytes, config.value) ∈ command.options
  maxMessage : ∀ config ∈ header.configs, config.key = "max.message.bytes".toList →
    (.property, config.text) ∈ command.options

/-- Exactly one command creates the topic of a header, and it carries the settings over. -/
def Recreated (dump : Dump) (serviceName : List Char) (header : Header) : Prop :=
  ∃ command, (createTopics (dump.lines.map Line.text) serviceName).filter
    (fun command => command.topic = header.topic.name) = [command] ∧ Carries command header

/-- The last setting whose name ends in another name, or differs from that in the dots only. -/
def lastNamed (name : List Char) (configs : List Config) : Option Config :=
  configs.reverse.find? fun config => endsWith (dotted name) config.key

/-- `[a-z]` -/
def letter : CharSet := ⟨false, [('a', 'z')]⟩

/-- The value is what the last setting of this name or ending has in front of other characters. -/
def IsLeading (name : List Char) (set : CharSet) (configs : List Config) (value : List Char) :
    Prop :=
  ∃ last ∈ lastNamed name configs, value = last.value.takeWhile set.has

/-- The settings of a topic are such that the patterns of the script cut them out as they are. -/
structure Extractable (configs : List Config) : Prop where
  cleanupPolicy : ∀ config ∈ configs, config.key = "cleanup.policy".toList →
    IsLeading "cleanup.policy".toList letter configs config.value
  retention : ∀ config ∈ configs, config.key = "retention.bytes".toList →
    config.value ≠ [] ∧ IsLeading "retention.bytes".toList .digit configs config.value
  maxMessage : ∀ config ∈ configs, config.key ≠ "max.message.bytes".toList

/-! ### Values of settings -/

/-- Settings behind each other, with a character in front of the first one. -/
def settings : Char → List Config → List Char
  | _, [] => []
  | sep, config :: configs => sep :: (config.text ++ settings ',' configs)

/-- A pattern for a name tells the keys of settings from what stands in front of them. -/
def Separated (name : List Char) (configs : List Config) : Prop :=
  ∀ config ∈ configs, ∀ text sep, sep = ',' ∨ sep = ' ' →
    endsWith (dotted name) (text ++ sep :: config.key) = endsWith (dotted name) config.key

/-- Names of two words are told from the keys, where none is only the second word. -/
theorem separated {word last : List Char} {configs : List Config} (noDot : '.' ∉ word ++ last)
    (noComma : ',' ∉ word ++ last) (noBlank : ' ' ∉ word ++ last)
    (longer : ∀ config : Config, config.key ≠ last) : Separated (word ++ '.' :: last) configs := by
  -- What stands in front of `=` is a key of another word, or ends behind a separator.
  intro config _ text sep either
  rcases either with same | same <;> subst same
  · exact endsWith_dotted noDot noComma (longer config)
  · exact endsWith_dotted noDot noBlank (longer config)

section Settings

variable {name start whole : List Char} {sep : Char} {configs : List Config} {set : CharSet}

/-- Behind settings that are named differently there is no place for a value of the name. -/
theorem unnamed (apart : Separated name configs) (separator : sep = ',' ∨ sep = ' ')
    (others : ∀ config ∈ configs, endsWith (dotted name) config.key = false) (noMark : '=' ∉ start)
    {before after : List Char} (split : start ++ settings sep configs = before ++ '=' :: after) :
    endsWith (dotted name) (whole ++ before) = false := by
  -- The place is behind the key of the first setting or farther on.
  induction configs generalizing start whole sep before with
  | nil =>
    rw [settings, List.append_nil] at split
    exact absurd (split ▸ by simp) noMark
  | cons config configs ih =>
    obtain ⟨here, behind⟩ := List.forall_mem_cons.mp others
    have noMarkYet : '=' ∉ start ++ sep :: config.key := by
      rw [List.mem_append, List.mem_cons, not_or, not_or]
      refine ⟨noMark, ?_, fun member => (config.plainKey '=' member).2 (by simp)⟩
      rcases separator with same | same <;> subst same <;> decide
    have shape : start ++ settings sep (config :: configs) =
        (start ++ sep :: config.key) ++ '=' :: (config.value ++ settings ',' configs) := by
      simp [settings, Config.text]
    rw [shape] at split
    rcases split_mark noMarkYet split with first | later
    · rw [first.1, ← List.append_assoc, apart config List.mem_cons_self _ sep separator, here]
    · obtain ⟨between, whole_eq, split⟩ := later
      have noMarkInside : '=' ∉ config.value :=
        fun member => (config.plainValue '=' member).2 (by simp)
      rw [whole_eq, ← List.append_assoc, List.append_cons]
      exact ih (fun config member => apart config (List.mem_cons_of_mem _ member)) (.inl rfl) behind
        noMarkInside split

/-- Settings in front of one of them are in the line in front of it. -/
theorem settings_append (before after : List Config) (config : Config) :
    ∃ other, (other = ',' ∨ other = sep) ∧ settings sep (before ++ config :: after) =
      settings sep before ++ other :: (config.text ++ settings ',' after) := by
  -- Only the first setting has the given character in front of it.
  induction before generalizing sep with
  | nil => exact ⟨sep, .inr rfl, rfl⟩
  | cons first before ih =>
    obtain ⟨other, either, split⟩ := @ih ','
    have comma : other = ',' := either.elim id id
    exact ⟨other, .inl comma, by simp [settings, split]⟩

/-- A pattern cuts out what the value of the last setting of the name begins with. -/
theorem cut_settings (apart : Separated name configs) (noMark : '=' ∉ start)
    (noBreak : '\n' ∉ start ++ settings ' ' configs) (noComma : set.has ',' = false) :
    (substituteGroup (valueBehind (dotted name) '=' set) (start ++ settings ' ' configs)).getD [] =
      ((lastNamed name configs).map fun config => config.value.takeWhile set.has).getD [] := by
  cases found : lastNamed name configs with
  | none =>
    rw [lastNamed, List.find?_eq_none] at found
    have others : ∀ config ∈ configs, endsWith (dotted name) config.key = false :=
      fun config member => by simpa using found config (List.mem_reverse.mpr member)
    have nowhere (before rest : List Char)
        (split : start ++ settings ' ' configs = before ++ '=' :: rest) :
        endsWith (dotted name) before = false :=
      @unnamed name start [] ' ' configs apart (.inr rfl) others noMark before rest split
    rw [valueBehind_none noBreak nowhere]
    rfl
  | some config =>
    rw [lastNamed, List.find?_eq_some_iff_append] at found
    obtain ⟨named, later, earlier, split, others⟩ := found
    have parts : configs = earlier.reverse ++ config :: later.reverse := by
      rw [← List.reverse_reverse configs, split]
      simp
    obtain ⟨sep, either, inLine⟩ := @settings_append ' ' earlier.reverse later.reverse config
    have line_eq : start ++ settings ' ' configs =
        (start ++ settings ' ' earlier.reverse ++ sep :: config.key) ++
          '=' :: (config.value ++ settings ',' later.reverse) := by
      simp [parts, inLine, Config.text]
    have member : config ∈ configs := by simp [parts]
    have there :=
      (apart config member (start ++ settings ' ' earlier.reverse) sep either).trans named
    have others : ∀ config ∈ later.reverse, endsWith (dotted name) config.key = false :=
      fun config member => by simpa using others config (List.mem_reverse.mp member)
    have behind : Separated name later.reverse :=
      fun config member => apart config (by simp [parts, List.mem_reverse.mp member])
    have noMarkInside : '=' ∉ config.value :=
      fun member => (config.plainValue '=' member).2 (by simp)
    have last (between after : List Char)
        (split : config.value ++ settings ',' later.reverse = between ++ '=' :: after) :
        endsWith (dotted name) (start ++ settings ' ' earlier.reverse ++ sep :: config.key ++
          '=' :: between) = false := by
      rw [List.append_cons]
      exact unnamed behind (.inl rfl) others noMarkInside split
    rw [line_eq] at noBreak ⊢
    rw [valueBehind_last noBreak rfl there last, Option.getD_some, Option.map_some,
      Option.getD_some]
    -- The value ends with the line or with a comma.
    cases later.reverse with
    | nil => rw [settings, List.append_nil]
    | cons next _ => exact takeWhile_stop noComma _ _

end Settings

/-! ### The line of a header -/

/-- Digits are in the set of the digits. -/
theorem decimal_digits (number : Nat) : ∀ char ∈ decimal number, CharSet.digit.has char :=
  fun _ member => has_digit.mpr (Nat.isDigit_of_mem_toDigits (by omega) (by omega) member)

/-- The number is what its digits begin with in front of something else. -/
theorem takeWhile_decimal (number : Nat) {stop : Char} (stops : CharSet.digit.has stop = false)
    (rest : List Char) :
    (decimal number ++ stop :: rest).takeWhile CharSet.digit.has = decimal number := by
  rw [takeWhile_stop stops, List.takeWhile_eq_self_iff]
  exact decimal_digits number

/-- A character that is no digit is not in a number. -/
theorem decimal_not_mem (number : Nat) {char : Char} (other : CharSet.digit.has char = false) :
    char ∉ decimal number := by
  intro member
  rw [decimal_digits number char member] at other
  exact Bool.noConfusion other

/-- A number is a word. -/
theorem decimal_isWord (number : Nat) : IsWord (decimal number) := toDigits_isWord number

/-- Settings in a row without blanks are one word. -/
theorem settings_word (config : Config) (configs : List Config) :
    IsWord (config.text ++ settings ',' configs) := by
  -- There are no blanks in keys and values, and none between settings.
  have solid (config : Config) : ∀ char ∈ config.text, isBlank char = false := by
    rw [Config.text, List.forall_mem_append, List.forall_mem_cons]
    exact ⟨fun char member => (config.plainKey char member).1, by decide,
      fun char member => (config.plainValue char member).1⟩
  have others : ∀ char ∈ settings ',' configs, isBlank char = false := by
    induction configs with
    | nil => simp [settings]
    | cons config configs ih =>
      rw [settings, List.forall_mem_cons, List.forall_mem_append]
      exact ⟨by decide, solid config, ih⟩
  exact IsWord.append ⟨by simp [Config.text], solid config⟩ others

/-- The settings stand behind everything else. -/
theorem Header.text_append (header : Header) (rest : List Char) :
    header.text rest = header.text [] ++ rest := by
  simp only [Header.text, Header.factorText, List.append_assoc, List.cons_append, List.append_nil]

/-- Without settings the line ends with their label. -/
theorem Header.configs_suffix (header : Header) : configsLabel <:+ header.text [] := by
  refine ⟨header.topicText ++ (countLabel ++ ' ' :: (decimal header.partitionCount ++ '\t' ::
    (factorLabel ++ ' ' :: (decimal header.replicationFactor ++ ['\t'])))), ?_⟩
  simp only [Header.text, Header.factorText, List.append_assoc, List.cons_append,
    List.nil_append, List.append_nil]

/-- The line of a header begins with a letter. -/
theorem Header.head_text (header : Header) (rest : List Char) :
    ∀ char ∈ (header.text rest).head?, isBlank char = false := by
  -- The text begins with the label of the topic.
  intro char first
  have label : topicLabel = 'T' :: "opic:".toList := by decide
  rw [Header.text, Header.topicText, label, List.cons_append, List.cons_append, List.head?_cons,
    Option.mem_some] at first
  exact first ▸ by decide

/-- The line of a header that ends with a word is not changed by trimming. -/
theorem Header.trim_text (header : Header) {front word : List Char} (rest : List Char)
    (isWord : IsWord word) (split : header.text rest = front ++ word) :
    trim (header.text rest) = header.text rest := by
  refine trim_eq_self (header.head_text rest) fun char last => isWord.solid char ?_
  -- The last character of the line is that of the word.
  have there := List.getLast?_eq_some_getLast isWord.nonempty
  rw [split, List.getLast?_append, there, Option.some_or, Option.mem_some] at last
  exact last ▸ List.getLast_mem isWord.nonempty

/-- Settings with commas between them are the first one and the others behind commas. -/
theorem intercalate_texts (config : Config) (configs : List Config) :
    [','].intercalate ((config :: configs).map Config.text) =
      config.text ++ settings ',' configs := by
  -- A comma stands between two settings, which is one in front of each but the first.
  induction configs generalizing config with
  | nil => rw [List.map_singleton, List.intercalate_singleton, settings, List.append_nil]
  | cons next configs ih =>
    have joined := ih next
    rw [List.map_cons] at joined ⊢
    rw [List.map_cons, List.intercalate_cons_cons, joined, settings, List.append_assoc,
      List.singleton_append]

/-- The line of a header as the script reads it. -/
theorem trim_line (header : Header) :
    trim header.line = header.text (settings ' ' header.configs) := by
  rw [Header.line]
  cases header.configs with
  | nil =>
    -- The blank behind the label of the settings is at the end of the line.
    have blank :
        header.text (' ' :: [','].intercalate ([].map Config.text)) = header.text [] ++ [' '] :=
      header.text_append [' ']
    have nonempty : header.text [] ≠ [] := by simp [Header.text]
    rw [blank, trim_blank (header.head_text []) nonempty rfl]
    have isWord : IsWord configsLabel := by decide
    obtain ⟨front, split⟩ := header.configs_suffix
    rw [header.trim_text [] isWord split.symm, settings]
  | cons config configs =>
    rw [intercalate_texts]
    have split : header.text (settings ' ' (config :: configs)) =
        header.text [' '] ++ (config.text ++ settings ',' configs) := by
      rw [header.text_append, header.text_append [' '], settings, List.append_assoc,
        List.singleton_append]
    exact header.trim_text _ (settings_word config configs) split

/-- Behind the replication factor the only label is the one of the settings. -/
theorem behind_factor {header : Header} {before after : List Char}
    (split : decimal header.replicationFactor ++ '\t' ::
      (configsLabel ++ settings ' ' header.configs) = before ++ ' ' :: after) :
    before = decimal header.replicationFactor ++ '\t' :: configsLabel := by
  -- The settings are one word, so that the only blank is the one in front of them.
  have noBlank : ' ' ∉ decimal header.replicationFactor ++ '\t' :: configsLabel := by
    rw [List.mem_append, not_or]
    exact ⟨decimal_not_mem _ (by decide), by decide⟩
  rw [← List.cons_append, ← List.append_assoc] at split
  cases configs : header.configs with
  | nil =>
    rw [configs, settings, List.append_nil] at split
    exact absurd (split ▸ by simp) noBlank
  | cons config configs' =>
    rw [configs, settings] at split
    rcases split_mark noBlank split with here | later
    · exact here.1
    · obtain ⟨between, -, inside⟩ := later
      have solid := (settings_word config configs').solid ' ' (inside ▸ by simp)
      exact absurd solid (by decide)

/-- In front of the settings there are labels, blanks and legal characters. -/
theorem Header.not_mem_text (header : Header) {char : Char} (illegal : legalChar char = false)
    (noDigit : CharSet.digit.has char = false) (noBlank : char ∉ [' ', '\t'])
    (noLabel : char ∉ topicLabel ++ idLabel ++ countLabel ++ factorLabel ++ configsLabel) :
    char ∉ header.text [] := by
  -- The line is made of labels, blanks, names and numbers.
  simp only [List.mem_append, List.mem_cons, List.not_mem_nil, or_false, not_or] at noBlank noLabel
  have inId : char ∉ header.idText := by
    rw [Header.idText]
    cases header.topicId with
    | none => simp
    | some id => simp [id.not_mem illegal, noLabel, noBlank]
  simp [Header.text, Header.topicText, Header.factorText, header.topic.not_mem illegal, inId,
    decimal_not_mem _ noDigit, noLabel, noBlank]

/-- The line of a header has no line breaks in it. -/
theorem noBreak_line (header : Header) : '\n' ∉ header.text (settings ' ' header.configs) := by
  -- Neither the start of the line nor a setting has a line break.
  have broken {config : Config} : '\n' ∉ config.text := by
    rw [Config.text, List.mem_append, List.mem_cons, not_or, not_or]
    exact ⟨fun member => (config.plainKey _ member).2 (by simp), by decide,
      fun member => (config.plainValue _ member).2 (by simp)⟩
  have inSettings (configs : List Config) {sep : Char} (solid : sep ≠ '\n') :
      '\n' ∉ settings sep configs := by
    induction configs generalizing sep with
    | nil => simp [settings]
    | cons config configs ih =>
      rw [settings, List.mem_cons, List.mem_append, not_or, not_or]
      exact ⟨solid.symm, broken, ih (by decide)⟩
  rw [header.text_append, List.mem_append, not_or]
  exact ⟨header.not_mem_text (by decide) (by decide) (by decide) (by decide),
    inSettings _ (by decide)⟩

/-- No label ends like another one. -/
theorem other_label (text : List Char) :
    endsWith (dotted countLabel) (text ++ factorLabel) = false ∧
    endsWith (dotted countLabel) (text ++ configsLabel) = false ∧
    endsWith (dotted factorLabel) (text ++ configsLabel) = false := by
  -- The last two characters make the difference.
  have count : dotted countLabel = dotted "PartitionCoun".toList ++ dotted "t:".toList := by decide
  have factor : dotted factorLabel = dotted "ReplicationFacto".toList ++ dotted "r:".toList := by
    decide
  have factorEnd : factorLabel = "ReplicationFacto".toList ++ "r:".toList := by decide
  have configsEnd : configsLabel = "Config".toList ++ "s:".toList := by decide
  refine ⟨?_, ?_, ?_⟩
  · rw [count, factorEnd, ← List.append_assoc, endsWith_other (by decide) (by decide)]
  · rw [count, configsEnd, ← List.append_assoc, endsWith_other (by decide) (by decide)]
  · rw [factor, configsEnd, ← List.append_assoc, endsWith_other (by decide) (by decide)]

/-- The partition count is cut out of the line. -/
theorem partitions_line (header : Header) :
    sed ".*PartitionCount: \\([0-9]*\\).*".toList (header.text (settings ' ' header.configs)) =
      decimal header.partitionCount := by
  -- The dots go on to the last blank behind the label, and the labels behind it end otherwise.
  have parsed : parse .basic ".*PartitionCount: \\([0-9]*\\).*".toList =
      some (valueBehind (dotted countLabel) ' ' .digit) := by decide
  have split : header.text (settings ' ' header.configs) = (header.topicText ++ countLabel) ++
      ' ' :: (decimal header.partitionCount ++ '\t' ::
        header.factorText (settings ' ' header.configs)) := by
    rw [Header.text, List.append_assoc]
  have named : endsWith (dotted countLabel) (header.topicText ++ countLabel) :=
    endsWith_iff.mpr ⟨_, countLabel, rfl, by decide⟩
  have last (between after : List Char) (inRest : decimal header.partitionCount ++ '\t' ::
      header.factorText (settings ' ' header.configs) = between ++ ' ' :: after) :
      endsWith (dotted countLabel) (header.topicText ++ countLabel ++ ' ' :: between) = false := by
    have noBlank : ' ' ∉ decimal header.partitionCount ++ '\t' :: factorLabel := by
      rw [List.mem_append, not_or]
      exact ⟨decimal_not_mem _ (by decide), by decide⟩
    rw [Header.factorText, ← List.cons_append, ← List.append_assoc] at inRest
    rcases split_mark noBlank inRest with here | later
    · have shape : header.topicText ++ countLabel ++ ' ' :: between = (header.topicText ++
          countLabel ++ ' ' :: (decimal header.partitionCount ++ ['\t'])) ++ factorLabel := by
        simp [here.1]
      rw [shape, (other_label _).1]
    · obtain ⟨farther, between_eq, inRest⟩ := later
      have shape : header.topicText ++ countLabel ++ ' ' :: between = (header.topicText ++
          countLabel ++ ' ' :: (decimal header.partitionCount ++ '\t' :: (factorLabel ++ ' ' ::
            (decimal header.replicationFactor ++ ['\t'])))) ++ configsLabel := by
        simp [between_eq, behind_factor inRest]
      rw [shape, (other_label _).2.1]
  rw [sed, parsed, Option.bind_some, valueBehind_last (noBreak_line header) split named last,
    Option.getD_some, takeWhile_decimal _ (by decide)]

/-- The replication factor is cut out of the line. -/
theorem replication_line (header : Header) :
    sed ".*ReplicationFactor: \\([0-9]*\\).*".toList (header.text (settings ' ' header.configs)) =
      decimal header.replicationFactor := by
  -- Behind this label there is one more label only.
  have parsed : parse .basic ".*ReplicationFactor: \\([0-9]*\\).*".toList =
      some (valueBehind (dotted factorLabel) ' ' .digit) := by decide
  let start := header.topicText ++ (countLabel ++ ' ' :: (decimal header.partitionCount ++ ['\t']))
  have split : header.text (settings ' ' header.configs) = (start ++ factorLabel) ++ ' ' ::
      (decimal header.replicationFactor ++ '\t' ::
        (configsLabel ++ settings ' ' header.configs)) := by
    simp [Header.text, Header.factorText, start]
  have named : endsWith (dotted factorLabel) (start ++ factorLabel) :=
    endsWith_iff.mpr ⟨_, factorLabel, rfl, by decide⟩
  have last (between after : List Char) (inRest : decimal header.replicationFactor ++ '\t' ::
      (configsLabel ++ settings ' ' header.configs) = between ++ ' ' :: after) :
      endsWith (dotted factorLabel) (start ++ factorLabel ++ ' ' :: between) = false := by
    have shape : start ++ factorLabel ++ ' ' :: between = (start ++ factorLabel ++ ' ' ::
        (decimal header.replicationFactor ++ ['\t'])) ++ configsLabel := by
      simp [behind_factor inRest]
    rw [shape, (other_label _).2.2]
  rw [sed, parsed, Option.bind_some, valueBehind_last (noBreak_line header) split named last,
    Option.getD_some, takeWhile_decimal _ (by decide)]

/-- What is cut out of the line for a name of a setting. -/
def cut (name : List Char) (set : CharSet) (configs : List Config) : List Char :=
  ((lastNamed name configs).map fun config => config.value.takeWhile set.has).getD []

/-- A value is cut out of the line for a name of two words. -/
theorem setting_line (header : Header) {word last expression : List Char} {set : CharSet}
    (parsed : parse .basic expression =
      some (valueBehind (dotted (word ++ '.' :: last)) '=' set))
    (noDot : '.' ∉ word ++ last) (noComma : ',' ∉ word ++ last) (noBlank : ' ' ∉ word ++ last)
    (longer : ∀ config : Config, config.key ≠ last) (stops : set.has ',' = false) :
    sed expression (header.text (settings ' ' header.configs)) =
      cut (word ++ '.' :: last) set header.configs := by
  -- The equals signs of a line are those of its settings.
  have noBreak := noBreak_line header
  have noMark : '=' ∉ header.text [] :=
    header.not_mem_text (by decide) (by decide) (by decide) (by decide)
  rw [header.text_append] at noBreak ⊢
  rw [sed, parsed, Option.bind_some]
  exact cut_settings (separated noDot noComma noBlank longer) noMark noBreak stops

/-- Fields that are all other words than the label of a topic have no topic behind them. -/
theorem behindTopic_nil {words : List (List Char)} (others : ∀ word ∈ words, word ≠ topicLabel) :
    behindTopic words = [] := by
  -- No word is the label, so that every one is skipped.
  induction words with
  | nil => rfl
  | cons word words ih =>
    obtain ⟨first, rest⟩ := List.forall_mem_cons.mp others
    rw [behindTopic, if_neg first, ih rest]

/-- The labels are words. -/
theorem label_words : IsWord topicLabel ∧ IsWord idLabel ∧ IsWord countLabel ∧ IsWord factorLabel ∧
    IsWord configsLabel := by decide

/-- A word without a colon is no label. -/
theorem ne_topicLabel {word : List Char} (noColon : ':' ∉ word) : word ≠ topicLabel :=
  fun same => noColon (same ▸ by decide)

/-- The settings in a line are no label of a topic. -/
theorem fields_settings (configs : List Config) : ∃ words, (∀ word ∈ words, word ≠ topicLabel) ∧
    fields (configsLabel ++ settings ' ' configs) = words := by
  -- There is an equals sign in the settings, and none in the label of a topic.
  obtain ⟨-, -, -, -, configsWord⟩ := label_words
  refine ⟨_, ?_, rfl⟩
  cases configs with
  | nil =>
    rw [settings, List.append_nil, fields_last configsWord, List.forall_mem_singleton]
    decide
  | cons config configs =>
    rw [settings, fields_word configsWord rfl, fields_last (settings_word config configs),
      List.forall_mem_cons, List.forall_mem_singleton]
    refine ⟨by decide, fun same => ?_⟩
    have mark : '=' ∈ config.text ++ settings ',' configs := by simp [Config.text]
    rw [same] at mark
    exact absurd mark (by decide)

/-- The fields behind the topic and its id. -/
theorem fields_counts (header : Header) (rest : List Char) :
    fields (countLabel ++ ' ' :: (decimal header.partitionCount ++ '\t' ::
        header.factorText rest)) =
      countLabel :: decimal header.partitionCount :: factorLabel ::
        decimal header.replicationFactor :: fields (configsLabel ++ rest) := by
  -- The labels and the decimals are words, and blanks part them.
  obtain ⟨-, -, countWord, factorWord, -⟩ := label_words
  rw [fields_word countWord rfl, fields_word (decimal_isWord _) rfl, Header.factorText,
    fields_word factorWord rfl, fields_word (decimal_isWord _) rfl]

/-- The fields in the line of a header. -/
theorem fields_line (header : Header) : ∃ words, (∀ word ∈ words, word ≠ topicLabel) ∧
    fields (header.text (settings ' ' header.configs)) =
      topicLabel :: header.topic.name :: words := by
  -- The label of a topic is at the start of the line only.
  obtain ⟨topicWord, idWord, -, -, -⟩ := label_words
  obtain ⟨last, others, settingsFields⟩ := fields_settings header.configs
  have counts : ∀ word ∈ countLabel :: decimal header.partitionCount :: factorLabel ::
      decimal header.replicationFactor :: last, word ≠ topicLabel := by
    have noColon (number : Nat) := ne_topicLabel (decimal_not_mem number (show _ = false by decide))
    simp only [List.forall_mem_cons]
    exact ⟨by decide, noColon _, by decide, noColon _, others⟩
  have countFields := fields_counts header (settings ' ' header.configs)
  rw [settingsFields] at countFields
  rw [Header.text, Header.topicText, List.append_assoc, List.cons_append, List.append_assoc,
    List.cons_append, fields_word topicWord rfl, fields_word (TopicName.isWord _) rfl,
    Header.idText]
  cases header.topicId with
  | none =>
    rw [Option.map_none, Option.getD_none, List.nil_append, countFields]
    exact ⟨_, counts, rfl⟩
  | some id =>
    rw [Option.map_some, Option.getD_some, List.append_assoc, List.cons_append, List.append_assoc,
      List.singleton_append, fields_word idWord rfl, fields_word id.isWord rfl, countFields]
    have both : ∀ word ∈ [idLabel, id.name], word ≠ topicLabel := by
      simp only [List.forall_mem_cons, List.not_mem_nil, false_implies, implies_true, and_true]
      exact ⟨by decide, ne_topicLabel (id.not_mem (by decide))⟩
    exact ⟨_, List.forall_mem_append.mpr ⟨both, counts⟩, rfl⟩

/-- The name of the topic is what is printed for the line. -/
theorem topic_line (header : Header) :
    topicOf (header.text (settings ' ' header.configs)) = header.topic.name := by
  -- There is one label of a topic, and the word behind it is its name.
  obtain ⟨words, others, split⟩ := fields_line header
  have notLabel : header.topic.name ≠ topicLabel := fun same =>
    header.topic.not_mem (show legalChar ':' = false by decide) (same ▸ by decide)
  have printed : behindTopic (topicLabel :: header.topic.name :: words) = [header.topic.name] := by
    rw [behindTopic, if_pos rfl, behindTopic, if_neg notLabel, behindTopic_nil others,
      List.headD_cons]
  have noBreak : ∀ char ∈ header.topic.name.reverse.head?, decide (char = '\n') = false := by
    intro char first
    have member := List.mem_reverse.mp (List.mem_of_mem_head? first)
    exact decide_eq_false fun same => header.topic.not_mem (by decide) (same ▸ member)
  rw [topicOf, split, printed, List.flatMap_singleton, substitution, List.reverse_append,
    List.reverse_singleton, List.singleton_append, List.dropWhile_cons_of_pos (by decide),
    dropWhile_of_head noBreak, List.reverse_reverse]

/-! ### The commands for a description -/

/-- The command for the line of a header. -/
theorem createCommand_line (serviceName : List Char) (header : Header) :
    createCommand serviceName (trim header.line) =
      { service := serviceName
        topic := header.topic.name
        options := [(.partitions, decimal header.partitionCount),
          (.cleanupPolicy, cut "cleanup.policy".toList letter header.configs),
          (.replication, decimal header.replicationFactor)] ++
            if cut "retention.bytes".toList .digit header.configs ≠ [] then
              [(.retentionBytes, cut "retention.bytes".toList .digit header.configs)]
            else [] } := by
  -- Each setting is cut out by the same kind of pattern.
  have cleanup := @setting_line header "cleanup".toList "policy".toList
    ".*cleanup.policy=\\([a-z]*\\).*".toList letter (by decide) (by decide) (by decide)
    (by decide) Config.notPolicy (by decide)
  have retention := @setting_line header "retention".toList "bytes".toList
    ".*retention.bytes=\\([0-9]*\\).*".toList .digit (by decide) (by decide) (by decide)
    (by decide) Config.notBytes (by decide)
  rw [createCommand, trim_line, topic_line, partitions_line, replication_line, cleanup, retention]
  rfl

/-- The first filter keeps the lines that begin with the label of a topic. -/
theorem grep_topic (line : List Char) : grep "^Topic:".toList line ↔ topicLabel <+: line := by
  have parsed : parse .basic "^Topic:".toList = some (.start :: literals topicLabel) := by decide
  rw [grep, parsed, Option.bind_some, search_start]

/-- The second filter keeps the lines with the label of settings. -/
theorem grep_configs (line : List Char) : grep "Configs:".toList line ↔ configsLabel <:+: line := by
  have parsed : parse .basic "Configs:".toList = some (literals configsLabel) := by decide
  rw [grep, parsed, Option.bind_some, search_literals]

/-- There is one command for each header, in their order. -/
theorem createTopics_lines (lines : List Line) (serviceName : List Char) :
    createTopics (lines.map Line.text) serviceName =
      (headers lines).map fun header => createCommand serviceName (trim header.line) := by
  -- Both filters keep a header, and the first one drops every other line.
  rw [createTopics]
  induction lines with
  | nil => rfl
  | cons line lines ih =>
    cases line with
    | topic header =>
      have first : grep "^Topic:".toList header.line := (grep_topic _).mpr ⟨_, rfl⟩
      have second : grep "Configs:".toList header.line := by
        rw [grep_configs, Header.line, header.text_append]
        exact header.configs_suffix.isInfix.trans (List.prefix_append _ _).isInfix
      have unfolded : headers (.topic header :: lines) = header :: headers lines := rfl
      rw [List.map_cons, Line.text, List.filter_cons_of_pos first, List.filter_cons_of_pos second,
        List.map_cons, ih, unfolded, List.map_cons]
    | other content noTopic =>
      have first : ¬grep "^Topic:".toList content := fun kept => noTopic ((grep_topic _).mp kept)
      have unfolded : headers (.other content noTopic :: lines) = headers lines := rfl
      rw [List.map_cons, Line.text, List.filter_cons_of_neg first, ih, unfolded]

/-- The value of a setting of this name is what is cut out exactly when it is the leading one. -/
theorem eq_cut_iff {name : List Char} {set : CharSet} {configs : List Config} {config : Config}
    (member : config ∈ configs) (named : config.key = name) (self : endsWith (dotted name) name) :
    config.value = cut name set configs ↔ IsLeading name set configs config.value := by
  -- The setting itself has the name, so that a last one is found.
  have found : (lastNamed name configs).isSome := by
    rw [lastNamed, List.find?_isSome]
    exact ⟨config, List.mem_reverse.mpr member, named ▸ self⟩
  obtain ⟨last, found⟩ := Option.isSome_iff_exists.mp found
  simp only [cut, IsLeading, found, Option.map_some, Option.getD_some, Option.mem_some,
    exists_eq_left']

/-- The command carries the settings over exactly when the patterns cut them out as they are. -/
theorem carries_iff (serviceName : List Char) (header : Header) :
    Carries (createCommand serviceName (trim header.line)) header ↔ Extractable header.configs := by
  -- An option is looked up in the command, where the last one may be missing.
  have cleanup (config : Config) (member : config ∈ header.configs)
      (named : config.key = "cleanup.policy".toList) : (.cleanupPolicy, config.value) ∈
        (createCommand serviceName (trim header.line)).options ↔
      IsLeading "cleanup.policy".toList letter header.configs config.value := by
    rw [← eq_cut_iff member named (by decide), createCommand_line]
    split <;> simp
  have retention (config : Config) (member : config ∈ header.configs)
      (named : config.key = "retention.bytes".toList) : (.retentionBytes, config.value) ∈
        (createCommand serviceName (trim header.line)).options ↔ config.value ≠ [] ∧
      IsLeading "retention.bytes".toList .digit header.configs config.value := by
    rw [← eq_cut_iff member named (by decide), createCommand_line]
    split
    · rename_i some
      simp only [List.mem_append, List.mem_cons, Prod.mk.injEq, reduceCtorEq, false_and,
        List.not_mem_nil, or_false, true_and, false_or]
      exact ⟨fun same => ⟨same ▸ some, same⟩, fun both => both.2⟩
    · rename_i none
      rw [not_not] at none
      rw [none]
      simp
  have property (text : List Char) :
      (.property, text) ∉ (createCommand serviceName (trim header.line)).options := by
    rw [createCommand_line]
    split <;> simp
  constructor
  · intro carries
    exact ⟨fun config member named =>
        (cleanup config member named).mp (carries.cleanupPolicy config member named),
      fun config member named =>
        (retention config member named).mp (carries.retention config member named),
      fun config member named => property _ (carries.maxMessage config member named)⟩
  · intro extractable
    refine ⟨?_, ?_, fun config member named =>
        (cleanup config member named).mpr (extractable.cleanupPolicy config member named),
      fun config member named =>
        (retention config member named).mpr (extractable.retention config member named),
      fun config member named => absurd named (extractable.maxMessage config member)⟩
    · rw [createCommand_line]
      exact List.mem_append_left _ List.mem_cons_self
    · rw [createCommand_line]
      exact List.mem_append_left _ (.tail _ (.tail _ List.mem_cons_self))

/-- Of the topics with distinct names one has a name. -/
theorem filter_distinct {α : Type} {key : α → List Char} {items : List α} {item : α}
    (distinct : (items.map key).Nodup) (member : item ∈ items) :
    items.filter (fun other => key other = key item) = [item] := by
  -- The others of the list have other keys.
  induction items with
  | nil => exact absurd member List.not_mem_nil
  | cons first items ih =>
    rw [List.map_cons, List.nodup_cons] at distinct
    rcases List.mem_cons.mp member with same | later
    · subst same
      have none : items.filter (fun other => key other = key item) = [] := by
        rw [List.filter_eq_nil_iff]
        intro other inside equal
        exact distinct.1 (List.mem_map.mpr ⟨other, inside, of_decide_eq_true equal⟩)
      rw [List.filter_cons_of_pos (by simp), none]
    · have other : key first ≠ key item := fun same =>
        distinct.1 (List.mem_map.mpr ⟨item, later, same.symm⟩)
      rw [List.filter_cons_of_neg (by simpa using other), ih distinct.2 later]

/-- The one command for the topic of a header is the one made of its line. -/
theorem recreated_iff_carries {dump : Dump} (serviceName : List Char) {header : Header}
    (member : header ∈ headers dump.lines) : Recreated dump serviceName header ↔
      Carries (createCommand serviceName (trim header.line)) header := by
  -- Of the commands for the headers one is for this topic.
  have topic (header : Header) :
      (createCommand serviceName (trim header.line)).topic = header.topic.name := by
    rw [createCommand_line]
  have commands : (headers dump.lines).filter ((fun command : TopicCreate =>
      decide (command.topic = header.topic.name)) ∘ fun header =>
        createCommand serviceName (trim header.line)) = [header] := by
    simp only [Function.comp_def, topic]
    exact filter_distinct dump.distinct member
  rw [Recreated, createTopics_lines, List.filter_map, commands, List.map_singleton]
  simp only [List.cons.injEq, and_true, exists_eq_left']

/-- A topic is created as it was exactly when the patterns cut its settings out as they are. -/
theorem recreated_iff (dump : Dump) (serviceName : List Char) (header : Header)
    (member : header ∈ headers dump.lines) :
    Recreated dump serviceName header ↔ Extractable header.configs :=
  (recreated_iff_carries serviceName member).trans (carries_iff serviceName header)

/-- The setting of a topic that is compacted. -/
def compaction : Config where
  key := "cleanup.policy".toList
  value := "compact".toList
  plainKey := List.forall_iff_forall_mem.mp (by decide)
  notPolicy := by decide
  notBytes := by decide
  plainValue := List.forall_iff_forall_mem.mp (by decide)

/-- The setting of a topic with larger messages than usual. -/
def largeMessages : Config where
  key := "max.message.bytes".toList
  value := "5242880".toList
  plainKey := List.forall_iff_forall_mem.mp (by decide)
  notPolicy := by decide
  notBytes := by decide
  plainValue := List.forall_iff_forall_mem.mp (by decide)

/-- A topic that is compacted. -/
def accounts : Header where
  topic := ⟨"accounts".toList, by decide, List.all_eq_true.mp rfl⟩
  topicId := none
  partitionCount := 12
  replicationFactor := 3
  configs := [compaction]

/-- A topic with larger messages than usual. -/
def images : Header where
  topic := ⟨"images".toList, by decide, List.all_eq_true.mp rfl⟩
  topicId := none
  partitionCount := 6
  replicationFactor := 3
  configs := [largeMessages]

/-- A description of both topics. -/
def bothTopics : Dump where
  lines := [.topic accounts, .other "\tTopic: accounts\tPartition: 0".toList (by decide +kernel),
    .topic images]
  distinct := by decide

/-- The compacted topic is created as it was. -/
theorem recreated_accounts : Recreated bothTopics "kafka".toList accounts := by
  have member : accounts ∈ headers bothTopics.lines := .head _
  have named : endsWith (dotted "cleanup.policy".toList) compaction.key := by decide
  -- Its value is all letters, and no other setting is there.
  have cleanup : IsLeading "cleanup.policy".toList letter [compaction] compaction.value :=
    ⟨compaction, by simp only [lastNamed, List.reverse_singleton, List.find?_singleton, named,
      if_true, Option.mem_some], by decide⟩
  have retention : compaction.key ≠ "retention.bytes".toList := by decide
  have maxMessage : compaction.key ≠ "max.message.bytes".toList := by decide
  have extractable : Extractable [compaction] :=
    ⟨List.forall_mem_singleton.mpr fun _ => cleanup,
      List.forall_mem_singleton.mpr fun named => absurd named retention,
      List.forall_mem_singleton.mpr maxMessage⟩
  exact (recreated_iff bothTopics "kafka".toList accounts member).mpr extractable

/-- The limit for the messages of the other topic is lost. -/
theorem maxMessage_lost : ¬Recreated bothTopics "kafka".toList images := by
  rw [recreated_iff_carries "kafka".toList (.tail _ (.head _)), carries_iff]
  exact fun extractable => extractable.maxMessage _ (.head _) rfl

end AivenExamples.TopicCreation
