import AivenExamples.Data.Json
import Mathlib.Data.List.Induction
import Mathlib.Data.List.MinMax

/-! JSON pointers (RFC 6901) and the `add` and `replace` operations of JSON patches (RFC 6902). -/

namespace AivenExamples

namespace JsonPointer

/-- Reading a reference token back: `~1` stands for a slash, `~0` for a tilde, and nothing else. -/
def unescape : List Char → Option (List Char)
  | [] => some []
  | '~' :: '1' :: rest => (unescape rest).map ('/' :: ·)
  | '~' :: '0' :: rest => (unescape rest).map ('~' :: ·)
  -- A tilde with anything else behind it is no escape.
  | char :: rest => if char = '~' then none else (unescape rest).map (char :: ·)

/-- The reference tokens of a pointer: none for the empty text, else one behind each slash. -/
def tokens (pointer : String) : Option (List String) :=
  match pointer.toList with
  | [] => some []
  | char :: rest =>
    if char = '/' then ((rest.splitOn '/').mapM unescape).map fun parts => parts.map String.ofList
    else none

/-- A name that a pointer can carry as it stands. -/
def Plain (name : String) : Prop := '/' ∉ name.toList ∧ '~' ∉ name.toList

instance (name : String) : Decidable (Plain name) := inferInstanceAs (Decidable (_ ∧ _))

/-- A token without tildes reads back as it stands. -/
theorem unescape_plain {chars : List Char} (plain : '~' ∉ chars) : unescape chars = some chars := by
  -- Without tildes only the last branch of the reader is taken.
  induction chars with
  | nil => rfl
  | cons char rest ih =>
    simp only [List.mem_cons, not_or] at plain
    have other : char ≠ '~' := fun same => plain.1 same.symm
    unfold unescape
    split <;> simp_all

/-- Reading a token back never lengthens it, and shortens it when it holds a tilde. -/
theorem unescape_length (chars : List Char) : ∀ out, unescape chars = some out →
    out.length ≤ chars.length ∧ ('~' ∈ chars → out.length < chars.length) := by
  -- The induction follows the cases of the reader; only an escape drops a character.
  induction chars using unescape.induct with
  | case1 => simp [unescape]
  -- An escaped slash takes two characters and gives one.
  | case2 rest ih =>
    intro out read
    simp only [unescape, Option.map_eq_some_iff] at read
    obtain ⟨tail, tailRead, rfl⟩ := read
    have bound := (ih tail tailRead).1
    simp only [List.length_cons]
    omega
  -- So does an escaped tilde.
  | case3 rest ih =>
    intro out read
    simp only [unescape, Option.map_eq_some_iff] at read
    obtain ⟨tail, tailRead, rfl⟩ := read
    have bound := (ih tail tailRead).1
    simp only [List.length_cons]
    omega
  -- A tilde without an escape is refused.
  | case4 rest notSlash notTilde =>
    intro out read
    rw [unescape.eq_4 _ _ notSlash notTilde, if_pos rfl] at read
    cases read
  -- Any other character is kept, so that an escape has to come later.
  | case5 char rest notSlash notTilde other ih =>
    intro out read
    rw [unescape.eq_4 _ _ notSlash notTilde, if_neg other, Option.map_eq_some_iff] at read
    obtain ⟨tail, tailRead, rfl⟩ := read
    obtain ⟨bound, shorter⟩ := ih tail tailRead
    simp only [List.length_cons, List.mem_cons]
    refine ⟨by omega, fun member => ?_⟩
    have inRest := shorter (member.resolve_left (Ne.symm other))
    omega

/-- A plain name behind a slash addresses the member of that name. -/
theorem tokens_plain {name : String} (plain : Plain name) : tokens ("/" ++ name) = some [name] := by
  -- There is one token, and nothing in it to read back.
  have whole : ("/" ++ name).toList = '/' :: name.toList := by simp
  simp [tokens, whole, List.splitOn_eq_singleton plain.1, unescape_plain plain.2]

/-- Any other name behind a slash addresses nothing, or something below a shorter name. -/
theorem tokens_not_plain {name : String} (special : ¬ Plain name) {parts : List String}
    (read : tokens ("/" ++ name) = some parts) :
    ∃ first rest, parts = first :: rest ∧ first.toList.length < name.toList.length := by
  -- What is special about the name is a slash or a tilde.
  have whole : ("/" ++ name).toList = '/' :: name.toList := by simp
  simp only [tokens, whole, if_pos, Option.map_eq_some_iff] at read
  obtain ⟨texts, texts_eq, rfl⟩ := read
  by_cases slash : '/' ∈ name.toList
  · -- The first token ends before the first slash of the name.
    obtain ⟨before, after, split, absent⟩ := List.eq_append_cons_of_mem slash
    rw [split, List.splitOn_append_cons_self_of_not_mem absent] at texts_eq
    simp only [List.mapM_cons, bind, Option.bind_eq_some_iff, pure] at texts_eq
    obtain ⟨first, firstRead, rest, restRead, same⟩ := texts_eq
    cases same
    refine ⟨String.ofList first, rest.map String.ofList, rfl, ?_⟩
    have bound := (unescape_length before first firstRead).1
    simp [split]
    omega
  · -- Without a slash the name is one token, which an escape makes shorter.
    have tilde : '~' ∈ name.toList := by
      by_contra absent
      exact special ⟨slash, absent⟩
    rw [List.splitOn_eq_singleton slash] at texts_eq
    simp only [List.mapM_cons, List.mapM_nil, bind, Option.bind_eq_some_iff, pure] at texts_eq
    obtain ⟨first, firstRead, rest, restRead, same⟩ := texts_eq
    cases same
    refine ⟨String.ofList first, rest.map String.ofList, rfl, ?_⟩
    simpa using (unescape_length name.toList first firstRead).2 tilde

end JsonPointer

/-- The two patch operations in use. -/
inductive PatchKind where
  | add
  | replace
  deriving DecidableEq

/-- One operation of a JSON patch. -/
structure PatchOp where
  op : PatchKind
  path : String
  value : Json

namespace Json

/-- An array index is `0` or a run of digits without a leading zero. -/
def arrayIndex (token : String) : Option Nat :=
  match token.toList with
  | ['0'] => some 0
  | '0' :: _ => none
  | digits => if digits ≠ [] ∧ digits.all Char.isDigit then token.toNat? else none

/-- The value after an operation at a location, or nothing when the location does not exist. -/
def patchAt (kind : PatchKind) (value : Json) : List String → Json → Option Json
  | [], _ => some value
  | token :: rest, .obj fields =>
    match rest, kind with
    -- Adding a member creates it, every other step needs the member to be there.
    | [], .add => some (.obj (Dict.set fields token value))
    | rest, kind => do
      let child ← Dict.get? fields token
      let patched ← patchAt kind value rest child
      return .obj (Dict.set fields token patched)
  | token :: rest, .arr items =>
    match rest, kind with
    | [], .add =>
      -- A dash stands for the place behind the last element.
      if token = "-" then some (.arr (items ++ [value]))
      else do
        let index ← arrayIndex token
        if index ≤ items.length then return .arr (items.insertIdx index value) else none
    -- The child is there and takes the rest of the path.
    | rest, kind => do
      let index ← arrayIndex token
      let child ← items[index]?
      let patched ← patchAt kind value rest child
      return .arr (items.set index patched)
  -- Nothing lies below texts, numbers, booleans and null.
  | _ :: _, _ => none

/-- One patch operation applied to a document. -/
def applyOp (document : Json) (operation : PatchOp) : Option Json := do
  let tokens ← JsonPointer.tokens operation.path
  patchAt operation.op operation.value tokens document

/-- A patch applies its operations in order and fails as a whole when one of them fails. -/
def applyPatch (document : Json) (operations : List PatchOp) : Option Json :=
  operations.foldlM applyOp document

/-- Adding a member that a single token addresses. -/
@[simp] theorem patchAt_add_member (value : Json) (token : String) (fields : List (String × Json)) :
    patchAt .add value [token] (.obj fields) = some (.obj (Dict.set fields token value)) := by
  simp [patchAt]

/-- Replacing a member that a single token addresses. -/
theorem patchAt_replace_member (value : Json) (token : String) {fields : List (String × Json)}
    {old : Json} (present : Dict.get? fields token = some old) :
    patchAt .replace value [token] (.obj fields) = some (.obj (Dict.set fields token value)) := by
  simp [patchAt, present]

/-- An operation below a member touches no other member of the object. -/
theorem patchAt_frame {kind : PatchKind} {value document : Json} {token : String}
    {rest : List String} {fields : List (String × Json)}
    (applied : patchAt kind value (token :: rest) (.obj fields) = some document) :
    ∃ after, document = .obj after ∧
      ∀ key, key ≠ token → Dict.get? after key = Dict.get? fields key := by
  -- Every successful branch assigns this one member.
  unfold patchAt at applied
  split at applied
  -- A new or an existing member is assigned.
  · cases applied
    exact ⟨_, rfl, fun key other => Dict.get?_set_of_ne _ _ other⟩
  · simp only [bind, Option.bind_eq_some_iff, pure, Option.some.injEq] at applied
    obtain ⟨child, _, patched, _, rfl⟩ := applied
    exact ⟨_, rfl, fun key other => Dict.get?_set_of_ne _ _ other⟩

end Json

/-- An operation whose path is one name behind a slash. -/
structure MemberOp where
  op : PatchKind
  name : String
  value : Json

namespace MemberOp

/-- The operation as it is sent. -/
def toPatchOp (operation : MemberOp) : PatchOp :=
  { op := operation.op, path := "/" ++ operation.name, value := operation.value }

/-- The member that the operation stands for. -/
def item (operation : MemberOp) : String × Json := (operation.name, operation.value)

/-- Operations on plain names assign their members, if what they replace is there. -/
theorem applyPatch_plain {fields : Dict String Json} {operations : List MemberOp}
    (plain : ∀ operation ∈ operations, JsonPointer.Plain operation.name)
    (present : ∀ operation ∈ operations, operation.op = .replace →
      operation.name ∈ Dict.keys fields) :
    Json.applyPatch (.obj fields) (operations.map toPatchOp) =
      some (.obj (Dict.update fields (operations.map item))) := by
  -- Each operation assigns one member, and assigning keeps the members that are replaced later.
  induction operations generalizing fields with
  | nil => rfl
  | cons operation rest ih =>
    have first : Json.applyOp (.obj fields) operation.toPatchOp =
        some (.obj (Dict.set fields operation.name operation.value)) := by
      simp only [Json.applyOp, toPatchOp, JsonPointer.tokens_plain (plain operation (by simp)),
        bind, Option.bind_some]
      -- A replacement needs its member, and an addition does not.
      cases kind : operation.op with
      | add => exact Json.patchAt_add_member _ _ _
      | replace =>
        obtain ⟨old, found⟩ := Dict.mem_keys.mp (present operation (by simp) kind)
        exact Json.patchAt_replace_member _ _ found
    have later : Json.applyPatch (.obj (Dict.set fields operation.name operation.value))
        (rest.map toPatchOp) =
          some (.obj (Dict.update (Dict.set fields operation.name operation.value)
            (rest.map item))) := by
      refine ih (fun other member => plain other (List.mem_cons_of_mem _ member)) ?_
      intro other member kind
      exact Dict.mem_keys_set.mpr
        (Or.inr (present other (List.mem_cons_of_mem _ member) kind))
    simp only [Json.applyPatch, List.map_cons, List.foldlM_cons, first, bind, Option.bind_some]
    exact later

/-- One operation leaves a special name alone when it stands for no longer special name. -/
theorem applyOp_frame {fields : Dict String Json} {operation : MemberOp} {document : Json}
    {name : String} (special : ¬ JsonPointer.Plain name)
    (bound : ¬ JsonPointer.Plain operation.name →
      operation.name.toList.length ≤ name.toList.length)
    (applied : Json.applyOp (.obj fields) operation.toPatchOp = some document) :
    ∃ after, document = .obj after ∧ Dict.get? after name = Dict.get? fields name := by
  simp only [Json.applyOp, toPatchOp, bind, Option.bind_eq_some_iff] at applied
  obtain ⟨tokens, read, applied⟩ := applied
  -- The first token is a plain name, or it is shorter than the special name.
  obtain ⟨first, rest, rfl, different⟩ :
      ∃ first rest, tokens = first :: rest ∧ name ≠ first := by
    by_cases plain : JsonPointer.Plain operation.name
    · rw [JsonPointer.tokens_plain plain, Option.some.injEq] at read
      exact ⟨operation.name, [], read.symm, fun same => special (same ▸ plain)⟩
    · obtain ⟨first, rest, same, shorter⟩ := JsonPointer.tokens_not_plain plain read
      refine ⟨first, rest, same, fun equal => ?_⟩
      have := bound plain
      rw [equal] at this
      omega
  obtain ⟨after, rfl, kept⟩ := Json.patchAt_frame applied
  exact ⟨after, rfl, kept name different⟩

/-- A patch leaves a special name alone that none of its special names exceeds in length. -/
theorem applyPatch_frame {fields : Dict String Json} {operations : List MemberOp} {document : Json}
    {name : String} (special : ¬ JsonPointer.Plain name)
    (bound : ∀ operation ∈ operations, ¬ JsonPointer.Plain operation.name →
      operation.name.toList.length ≤ name.toList.length)
    (applied : Json.applyPatch (.obj fields) (operations.map toPatchOp) = some document) :
    ∃ after, document = .obj after ∧ Dict.get? after name = Dict.get? fields name := by
  -- Every operation leaves the name alone, so the fields stay quantified over.
  induction operations generalizing fields with
  | nil =>
    cases applied
    exact ⟨fields, rfl, rfl⟩
  | cons operation rest ih =>
    simp only [Json.applyPatch, List.map_cons, List.foldlM_cons, bind,
      Option.bind_eq_some_iff] at applied
    obtain ⟨middle, first, later⟩ := applied
    obtain ⟨between, rfl, kept⟩ := applyOp_frame special (bound operation (by simp)) first
    obtain ⟨after, rfl, keptLater⟩ :=
      ih (fun next member => bound next (List.mem_cons_of_mem _ member)) later
    exact ⟨after, rfl, keptLater.trans kept⟩

/-- Among operations with a special name there is one whose special name is not exceeded. -/
theorem exists_longest_special {operations : List MemberOp}
    (some : ∃ operation ∈ operations, ¬ JsonPointer.Plain operation.name) :
    ∃ longest ∈ operations, ¬ JsonPointer.Plain longest.name ∧
      ∀ operation ∈ operations, ¬ JsonPointer.Plain operation.name →
        operation.name.toList.length ≤ longest.name.toList.length := by
  -- A longest name is taken from the operations that remain after the plain names are dropped.
  obtain ⟨operation, member, special⟩ := some
  let specials := operations.filter fun operation => ¬ JsonPointer.Plain operation.name
  have here : operation ∈ specials := List.mem_filter.mpr ⟨member, by simpa using special⟩
  -- There is a special name, so there is a longest one.
  obtain ⟨longest, chosen⟩ : ∃ longest,
      longest ∈ specials.argmax fun operation => operation.name.toList.length :=
    Option.ne_none_iff_exists'.mp fun empty =>
      List.ne_nil_of_mem here (List.argmax_eq_none.mp empty)
  have kept := List.mem_filter.mp (List.argmax_mem chosen)
  refine ⟨longest, kept.1, by simpa using kept.2, fun other otherMember otherSpecial => ?_⟩
  exact List.le_of_mem_argmax (f := fun operation : MemberOp => operation.name.toList.length)
    (List.mem_filter.mpr ⟨otherMember, by simpa using otherSpecial⟩) chosen

end MemberOp

end AivenExamples
