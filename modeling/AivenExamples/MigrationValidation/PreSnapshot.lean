import AivenExamples.Data.Decimal
import AivenExamples.Data.Run
import AivenExamples.MigrationValidation.Collect

/-! The checks before a snapshot: which indices are reported, and when none is. -/

namespace AivenExamples.MigrationValidation

/-! ### The script -/

/-- The lines that the script prints behind its heading. -/
inductive CheckLine where
  | unsupported (index : String) (indexVersion : String)
  /-- The listing of the indices failed. -/
  | listingFailed (message : String)
  | checksCompleted
  | toResolve
  | noIssues
  /-- The traceback of an exception that nobody catches. -/
  | uncaught

/-- `details["settings"]["index"]["version"]["created"]` -/
def createdVersion (details : Json) : Except PyError Json := do
  let settings ← details.item "settings"
  let index ← settings.item "index"
  let version ← index.item "version"
  version.item "created"

/-- `int(index_version[:3])`, for a text. -/
def versionNum (indexVersion : Json) : Except PyError (String × Int) :=
  match indexVersion with
  | .str text => do return (text, ← Decimal.int (text.toList.take 3))
  -- Nothing else has a slice that `int` takes.
  | _ => .error .typeError

/-- The comparison of `check_indices_version`. -/
def unsupportedNum (versionNum : Int) : Prop :=
  136 < versionNum ∧ versionNum < 700 ∨ 710 < versionNum

instance (versionNum : Int) : Decidable (unsupportedNum versionNum) := by
  unfold unsupportedNum
  infer_instance

/-- One round of the loop over the indices; the flag is set for good. -/
def checkIndex (issues : Bool) (index : String × Json) : Run CheckLine Bool := do
  let created ← Run.attempt (createdVersion index.2) .uncaught
  let (indexVersion, number) ← Run.attempt (versionNum created) .uncaught
  if unsupportedNum number then
    Run.emit (.unsupported index.1 indexVersion)
    return true
  else return issues

/-- `indices.items()` -/
def itemsOf (indices : Json) : Except PyError (Dict String Json) :=
  match indices with
  | .obj fields => .ok fields
  | _ => .error .attributeError

/-- `check_indices_version`, given the answer to the listing of all indices. -/
def checkIndicesVersion (reply : Reply) (issues : Bool) : Run CheckLine Bool :=
  match reply with
  | .ok indices => do
    let items ← Run.attempt (itemsOf indices) .uncaught
    Run.fold checkIndex issues items
  -- The handler prints the error and returns without setting the flag.
  | .error (.elasticsearch message) => do
    Run.emit (.listingFailed message)
    return issues
  | .error (.other message) =>
    Run.attempt (.error (PyError.runtimeError message)) .uncaught

/-- The checks and the verdict; the other checks are still to be written. -/
def preSnapshotChecks (reply : Reply) : Run CheckLine Unit := do
  let issues ← checkIndicesVersion reply false
  Run.emit .checksCompleted
  if issues then Run.emit .toResolve else Run.emit .noIssues

/-! ### Versions -/

/-- Who made the cluster that an index was created by. -/
inductive Product where
  | elasticsearch
  | openSearch
  deriving DecidableEq

/-- A version of a product; all but the major number have two digits. -/
structure Version where
  product : Product
  major : Nat
  minor : Nat
  revision : Nat
  build : Nat
  minor_lt : minor < 100
  revision_lt : revision < 100
  build_lt : build < 100

namespace Version

/-- The four numbers in one. -/
def number (version : Version) : Nat :=
  version.major * 1000000 + version.minor * 10000 + version.revision * 100 + version.build

/-- The id that an index is stamped with. -/
def id (version : Version) : Nat :=
  match version.product with
  | .elasticsearch => version.number
  | .openSearch => version.number ^^^ 0x08000000

/-- Elasticsearch 7.0 to 7.10, OpenSearch 1.x and 2.x. -/
def Supported (version : Version) : Prop :=
  match version.product with
  | .elasticsearch => version.major = 7 ∧ version.minor ≤ 10
  | .openSearch => version.major = 1 ∨ version.major = 2

/-- What the script makes of a version: the first three digits of its id. -/
def firstThree (version : Version) : Int :=
  Nat.ofDigitChars 10 ((Nat.toDigits 10 version.id).take 3) 0

/-- The script reports an index of this version. -/
def Flagged (version : Version) : Prop := unsupportedNum version.firstThree

instance (version : Version) : Decidable version.Flagged := by
  unfold Flagged
  infer_instance

/-- The numbers of a major version. -/
theorem number_bounds (version : Version) :
    version.major * 1000000 + version.minor * 10000 ≤ version.number ∧
      version.number < version.major * 1000000 + version.minor * 10000 + 10000 := by
  -- Revision and build are below a hundred each.
  have revision := version.revision_lt
  have build := version.build_lt
  unfold number
  omega

/-- The ids of OpenSearch have one more bit, as long as the major version is below 134. -/
theorem id_openSearch {version : Version} (product : version.product = .openSearch)
    (below : version.major < 134) : version.id = 134217728 + version.number := by
  have bounds := version.number_bounds
  have minor := version.minor_lt
  have small : version.number < 2 ^ 27 := by omega
  -- The bit is above all of those of the number.
  have high : (version.number ^^^ 2 ^ 27) / 2 ^ 27 = 1 := by
    rw [Nat.xor_div_two_pow, Nat.div_eq_of_lt small, Nat.div_self (by omega), Nat.zero_xor]
  have low : (version.number ^^^ 2 ^ 27) % 2 ^ 27 = version.number := by
    rw [Nat.xor_mod_two_pow, Nat.mod_eq_of_lt small, Nat.mod_self, Nat.xor_zero]
  have whole := Nat.div_add_mod (version.number ^^^ 2 ^ 27) (2 ^ 27)
  rw [high, low] at whole
  rw [id, product]
  show version.number ^^^ 2 ^ 27 = _
  omega

/-- For a major version of one digit the script sees the major and the minor number. -/
theorem firstThree_elasticsearch {version : Version} (product : version.product = .elasticsearch)
    (low : 1 ≤ version.major) (high : version.major ≤ 9) :
    version.firstThree = version.major * 100 + version.minor := by
  -- The id has seven digits, and the last four are dropped.
  have bounds := version.number_bounds
  have minor := version.minor_lt
  have same : version.id = version.number := by rw [id, product]
  have quotient : version.id / 10 ^ 4 = version.major * 100 + version.minor := by omega
  rw [firstThree, Decimal.ofDigitChars_take_toDigits 4 (by omega) (by omega), quotient]
  push_cast
  rfl

/-- For OpenSearch the script sees the bit and the millions of the number. -/
theorem firstThree_openSearch {version : Version} (product : version.product = .openSearch)
    (below : version.major < 134) :
    version.firstThree = ((134217728 + version.number) / 1000000 : Nat) := by
  -- The id has nine digits, and the last six are dropped.
  have bounds := version.number_bounds
  have minor := version.minor_lt
  rw [firstThree, id_openSearch product below]
  exact congrArg Nat.cast (Decimal.ofDigitChars_take_toDigits 6 (by omega) (by omega))

/-- Elasticsearch 1.37 to 6.x and everything from 7.11 to 9.x is reported. -/
theorem flagged_elasticsearch {version : Version} (product : version.product = .elasticsearch)
    (low : 1 ≤ version.major) (high : version.major ≤ 9) :
    version.Flagged ↔ (version.major = 1 → 37 ≤ version.minor) ∧
      (version.major = 7 → 11 ≤ version.minor) := by
  -- The first three digits are the major version and both digits of the minor one.
  have minor := version.minor_lt
  rw [Flagged, firstThree_elasticsearch product low high, unsupportedNum]
  omega

/-- OpenSearch is reported from 2.78.22.72 on. -/
theorem flagged_openSearch {version : Version} (product : version.product = .openSearch)
    (below : version.major < 134) : version.Flagged ↔ 2782272 ≤ version.number := by
  -- Below this major version the digits grow with the number, and 137 is reached once.
  have bounds := version.number_bounds
  have minor := version.minor_lt
  rw [Flagged, firstThree_openSearch product below, unsupportedNum]
  omega

/-- OpenSearch 2.78.22.72 and later versions of OpenSearch 2. -/
def LateTwo (version : Version) : Prop :=
  version.product = .openSearch ∧ version.major = 2 ∧ 2782272 ≤ version.number

/-- The only supported versions that are reported are late ones of OpenSearch 2. -/
theorem flagged_of_supported {version : Version} (supported : version.Supported) :
    version.Flagged ↔ version.LateTwo := by
  -- The limits of the code are compared with those of each product.
  have bounds := version.number_bounds
  have minor := version.minor_lt
  unfold Supported at supported
  unfold LateTwo
  cases product : version.product with
  | elasticsearch =>
    rw [product] at supported
    rw [flagged_elasticsearch product (by omega) (by omega)]
    refine iff_of_false (fun both => ?_) (fun late => by cases late.1)
    have later := both.2 supported.1
    have earlier := supported.2
    omega
  | openSearch =>
    rw [product] at supported
    have majors : version.major = 1 ∨ version.major = 2 := supported
    rw [flagged_openSearch product (by omega)]
    refine ⟨fun late => ⟨rfl, ?_, late⟩, fun late => late.2.2⟩
    omega

end Version

/-! ### Verdicts -/

/-- An index in the listing, stamped with the version that created it. -/
structure Index where
  name : String
  details : Json
  version : Version
  created : createdVersion details = .ok (.str (toString version.id))

/-- The answer to the listing of all indices. -/
inductive Listing where
  | failed (fault : Fault)
  | answered (indices : List Index)

/-- The answer as the script receives it. -/
def Listing.reply : Listing → Reply
  | .failed fault => .error fault
  | .answered indices => .ok (.obj (indices.map fun index => (index.name, index.details)))

/-- The listing succeeded, and every index was created by a supported version. -/
def Listing.Safe : Listing → Prop
  | .failed _ => False
  | .answered indices => ∀ index ∈ indices, index.version.Supported

/-- When the verdict is right: the listing does not fail quietly, and no index misleads it. -/
def Listing.Judged : Listing → Prop
  | .failed (.elasticsearch _) => False
  -- Any other exception ends the script without a verdict.
  | .failed (.other _) => True
  | .answered indices =>
    (∀ index ∈ indices, index.version.Supported ∧ ¬index.version.LateTwo) ∨
      (∃ index ∈ indices, ¬index.version.Supported) ∧ ∃ index ∈ indices, index.version.Flagged

/-- The round of the loop for an index reports it if it is flagged. -/
theorem checkIndex_eq (issues : Bool) (index : Index) :
    checkIndex issues (index.name, index.details) =
      if index.version.Flagged then
        { events := [.unsupported index.name (toString index.version.id)], result := some true }
      else { events := [], result := some issues } := by
  -- The stamp is made of digits, so that neither the slice nor `int` fails.
  have digits : Decimal.int ((toString index.version.id).toList.take 3) =
      .ok index.version.firstThree := by
    rw [Nat.toString_eq_repr, Nat.toList_repr, Decimal.int_digits]
    · rfl
    · simp [Nat.toDigits_ne_nil]
    · intro char member
      exact Nat.isDigit_of_mem_toDigits (by omega) (by omega) (List.mem_of_mem_take member)
  have number : versionNum (.str (toString index.version.id)) =
      .ok (toString index.version.id, index.version.firstThree) := by
    rw [versionNum, digits]
    rfl
  rw [checkIndex, index.created, Run.attempt_ok_bind, number, Run.attempt_ok_bind]
  by_cases flagged : index.version.Flagged
  · rw [if_pos flagged]
    exact if_pos flagged
  · rw [if_neg flagged]
    exact if_neg flagged

/-- The loop over the indices finds an issue when one of them is flagged, and gives no verdict. -/
theorem fold_checkIndex (issues : Bool) (indices : List Index) :
    (Run.fold checkIndex issues (indices.map fun index => (index.name, index.details))).result =
        some (issues || indices.any fun index => index.version.Flagged) ∧
      .noIssues ∉ (Run.fold checkIndex issues
        (indices.map fun index => (index.name, index.details))).events := by
  -- The flag is handed on from one index to the next.
  induction indices generalizing issues with
  | nil => simp [Run.fold]
  | cons index indices ih =>
    rw [List.map_cons, Run.fold, checkIndex_eq]
    by_cases flagged : index.version.Flagged
    · obtain ⟨result, silent⟩ := ih true
      rw [if_pos flagged, Run.bind_of_some rfl]
      simp only [result, List.any_cons, flagged]
      exact ⟨by simp, by simpa using silent⟩
    · obtain ⟨result, silent⟩ := ih issues
      rw [if_neg flagged, Run.bind_of_some rfl]
      simp only [result, List.any_cons, flagged]
      exact ⟨by simp, by simpa using silent⟩

/-- After a listing that succeeded the script finds no issues exactly when no index is flagged. -/
theorem noIssues_answered (indices : List Index) :
    .noIssues ∈ (preSnapshotChecks (Listing.answered indices).reply).events ↔
      ∀ index ∈ indices, ¬index.version.Flagged := by
  -- The verdict depends on the flag only, and the loop does not print it.
  obtain ⟨result, silent⟩ := fold_checkIndex false indices
  have answered : checkIndicesVersion (Listing.answered indices).reply false =
      Run.fold checkIndex false (indices.map fun index => (index.name, index.details)) := rfl
  rw [preSnapshotChecks, answered, Run.bind_of_some result, List.mem_append, or_iff_right silent]
  cases issues : indices.any fun index => index.version.Flagged with
  | true =>
    obtain ⟨index, member, flagged⟩ := List.any_eq_true.mp issues
    refine iff_of_false (by simp) fun none => none index member (by simpa using flagged)
  | false =>
    refine iff_of_true (by simp) fun index member flagged => ?_
    exact absurd (List.any_eq_false.mp issues index member) (by simpa using flagged)

/-- After a listing that failed quietly the script finds no issues either. -/
theorem events_listingFailed (message : String) :
    (preSnapshotChecks (.error (.elasticsearch message))).events =
      [.listingFailed message, .checksCompleted, .noIssues] := rfl

/-- The verdict `No issues found.` is right exactly for the listings that are judged. -/
theorem noIssues_right_iff (listing : Listing) :
    (.noIssues ∈ (preSnapshotChecks listing.reply).events ↔ listing.Safe) ↔ listing.Judged := by
  cases listing with
  | failed fault =>
    cases fault with
    | elasticsearch message =>
      -- The failure is printed, and the flag is still down.
      simp [Listing.reply, events_listingFailed, Listing.Safe, Listing.Judged]
    | other message =>
      simp [preSnapshotChecks, Listing.reply, checkIndicesVersion, Listing.Safe, Listing.Judged]
  | answered indices =>
    rw [noIssues_answered, Listing.Safe, Listing.Judged]
    constructor
    · intro right
      by_cases safe : ∀ index ∈ indices, index.version.Supported
      · refine .inl fun index member => ⟨safe index member, fun late => ?_⟩
        exact right.mpr safe index member
          ((Version.flagged_of_supported (safe index member)).mpr late)
      · refine .inr ⟨by simpa using safe, ?_⟩
        by_contra none
        exact safe (right.mp fun index member flagged => none ⟨index, member, flagged⟩)
    · intro judged
      rcases judged with fine | ⟨unsupported, flagged⟩
      · refine iff_of_true (fun index member flagged => ?_)
          fun index member => (fine index member).1
        obtain ⟨supported, early⟩ := fine index member
        exact early ((Version.flagged_of_supported supported).mp flagged)
      · obtain ⟨bad, there, unsupported⟩ := unsupported
        obtain ⟨index, member, reported⟩ := flagged
        exact iff_of_false (fun none => none index member reported)
          fun safe => unsupported (safe bad there)

/-- The details of an index that was created by a version. -/
def stamped (version : Version) : Json :=
  .obj [("settings", .obj [("index", .obj [("version",
    .obj [("created", .str (toString version.id))])])])]

/-- An index that was created by Elasticsearch 1.7.5. -/
def oldIndex : Index where
  name := "logs"
  details := stamped ⟨.elasticsearch, 1, 7, 5, 99, by omega, by omega, by omega⟩
  version := ⟨.elasticsearch, 1, 7, 5, 99, by omega, by omega, by omega⟩
  created := rfl

/-- A failed listing and an index of Elasticsearch 1 both end with `No issues found.`. -/
theorem noIssues_unsafe :
    (.noIssues ∈ (preSnapshotChecks (Listing.failed (.elasticsearch "timeout")).reply).events ∧
        ¬(Listing.failed (.elasticsearch "timeout")).Safe) ∧
      .noIssues ∈ (preSnapshotChecks (Listing.answered [oldIndex]).reply).events ∧
        ¬(Listing.answered [oldIndex]).Safe := by
  refine ⟨⟨by simp [Listing.reply, events_listingFailed], fun safe => safe⟩, ?_, fun safe => ?_⟩
  · -- The id 1070599 begins with 107, which is below the threshold.
    rw [noIssues_answered]
    simp only [List.mem_singleton, forall_eq]
    rw [Version.flagged_elasticsearch rfl (by decide) (by decide)]
    decide
  · have supported := safe oldIndex List.mem_cons_self
    exact absurd supported.1 (by decide)

end AivenExamples.MigrationValidation
