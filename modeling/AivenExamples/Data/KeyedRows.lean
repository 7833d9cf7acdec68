import Mathlib.Data.List.Nodup
import Mathlib.Data.List.Perm.Basic

/-! Tables whose rows have a key, their change histories, and histories that agree key by key. -/

namespace AivenExamples

/-- A change of one row of a table. -/
inductive RowChange (ρ : Type) where
  | insert (after : ρ)
  | update (before after : ρ)
  | delete (before : ρ)

namespace RowChange

variable {ρ κ : Type}

/-- The row that tells which key the change is about. -/
def subject : RowChange ρ → ρ
  | .insert after => after
  | .update before _ => before
  | .delete before => before

/-- The same change of other rows. -/
def map {σ : Type} (f : ρ → σ) : RowChange ρ → RowChange σ
  | .insert after => .insert (f after)
  | .update before after => .update (f before) (f after)
  | .delete before => .delete (f before)

/-- All rows that a change mentions. -/
def images : RowChange ρ → List ρ
  | .insert after => [after]
  | .update before after => [before, after]
  | .delete before => [before]

/-- The subject of a change is among its images. -/
theorem subject_mem_images (change : RowChange ρ) : change.subject ∈ change.images := by
  cases change <;> simp [subject, images]

section Key

variable (key : ρ → κ)

/-- A change that a table with a unique key allows, with true images and a key that stays. -/
def Legal (rows : List ρ) : RowChange ρ → Prop
  | .insert after => ∀ row ∈ rows, key row ≠ key after
  | .update before after => before ∈ rows ∧ key after = key before
  | .delete before => before ∈ rows

/-- A change that the row under its key, if any, allows. -/
def LegalAt (current : Option ρ) : RowChange ρ → Prop
  | .insert _ => current = none
  | .update before after => current = some before ∧ key after = key before
  | .delete before => current = some before

/-- What a change makes of the row under its key. -/
def applyAt (current : Option ρ) : RowChange ρ → Option ρ
  | .insert after => some after
  | .update _ after => current.map fun _ => after
  | .delete _ => none

/-- A history in which every change is allowed by the row that the earlier ones have left. -/
def LegalRunAt : Option ρ → List (RowChange ρ) → Prop
  | _, [] => True
  | current, change :: changes =>
    change.LegalAt key current ∧ LegalRunAt (change.applyAt current) changes

variable [DecidableEq κ]

/-- The rows after a change. -/
def apply (rows : List ρ) : RowChange ρ → List ρ
  | .insert after => rows ++ [after]
  | .update before after => rows.map fun row => if key row = key before then after else row
  | .delete before => rows.filter fun row => !decide (key row = key before)

/-- The rows after a history of changes. -/
def replay (rows : List ρ) (changes : List (RowChange ρ)) : List ρ :=
  changes.foldl (apply key) rows

/-- A history in which every change is allowed by the rows that the earlier ones have left. -/
def LegalRun : List ρ → List (RowChange ρ) → Prop
  | _, [] => True
  | rows, change :: changes => change.Legal key rows ∧ LegalRun (change.apply key rows) changes

/-- The row under a key. -/
def lookup (rows : List ρ) (k : κ) : Option ρ := rows.find? fun row => decide (key row = k)

/-- The changes of a history that are about a key. -/
def about (k : κ) (changes : List (RowChange ρ)) : List (RowChange ρ) :=
  changes.filter fun change => decide (key change.subject = k)

variable {key}

/-- With distinct keys the row under a key is the row that has it. -/
theorem lookup_eq_some {rows : List ρ} (distinct : (rows.map key).Nodup) {k : κ} {row : ρ} :
    lookup key rows k = some row ↔ row ∈ rows ∧ key row = k := by
  -- The search stops at the first row with the key, and distinct keys leave no other.
  induction rows with
  | nil => simp [lookup]
  | cons head rows ih =>
    rw [List.map_cons, List.nodup_cons] at distinct
    have rest := ih distinct.2
    unfold lookup at rest ⊢
    by_cases here : key head = k
    · -- No later row has the key of the head again.
      have alone : row ∈ rows → key row ≠ k := fun member same =>
        distinct.1 (List.mem_map.mpr ⟨row, member, same.trans here.symm⟩)
      simp only [List.find?_cons, here, decide_true, Option.some.injEq, List.mem_cons]
      constructor
      · intro same
        subst same
        exact ⟨Or.inl rfl, here⟩
      · intro present
        obtain ⟨rfl | later, same⟩ := present
        · rfl
        · exact absurd same (alone later)
    -- The search goes on behind the head.
    · simp only [List.find?_cons, here, decide_false, List.mem_cons, rest]
      constructor
      · intro present
        obtain ⟨member, same⟩ := present
        exact ⟨Or.inr member, same⟩
      · intro present
        obtain ⟨rfl | member, same⟩ := present
        · exact absurd same here
        · exact ⟨member, same⟩

/-- A key without a row is the key of no row. -/
theorem lookup_eq_none {rows : List ρ} {k : κ} :
    lookup key rows k = none ↔ ∀ row ∈ rows, key row ≠ k := by
  simp [lookup]

/-- Tables that look up the same rows are rearrangements of each other. -/
theorem perm_of_lookup {first second : List ρ} (firstDistinct : (first.map key).Nodup)
    (secondDistinct : (second.map key).Nodup)
    (same : ∀ k, lookup key first k = lookup key second k) : first.Perm second := by
  -- Distinct rows are a rearrangement of each other when they have the same members.
  refine (List.perm_ext_iff_of_nodup firstDistinct.of_map secondDistinct.of_map).mpr fun row => ?_
  have inFirst : lookup key first (key row) = some row ↔ row ∈ first := by
    rw [lookup_eq_some firstDistinct, and_iff_left rfl]
  have inSecond : lookup key second (key row) = some row ↔ row ∈ second := by
    rw [lookup_eq_some secondDistinct, and_iff_left rfl]
  rw [← inFirst, same, inSecond]

/-- With distinct keys, what a table allows is decided by the row under the key of the change. -/
theorem legal_iff {rows : List ρ} (distinct : (rows.map key).Nodup) (change : RowChange ρ) :
    change.Legal key rows ↔ change.LegalAt key (lookup key rows (key change.subject)) := by
  -- A fresh key is one without a row, and a current image is the row under its key.
  cases change with
  | insert after => exact lookup_eq_none.symm
  | update before after => simp [Legal, LegalAt, subject, lookup_eq_some distinct]
  | delete before => simp [Legal, LegalAt, subject, lookup_eq_some distinct]

/-- A legal change keeps the keys distinct. -/
theorem distinct_apply {rows : List ρ} (distinct : (rows.map key).Nodup) {change : RowChange ρ}
    (legal : change.Legal key rows) : ((change.apply key rows).map key).Nodup := by
  cases change with
  -- The new key is none of the keys that are there.
  | insert after =>
    rw [apply, List.map_append, List.nodup_append]
    refine ⟨distinct, by simp, ?_⟩
    intro k member other single same
    subst same
    obtain ⟨row, there, rfl⟩ := List.mem_map.mp member
    exact legal row there (by simpa using single)
  | update before after =>
    -- The replaced row keeps its key, so the list of keys stays the same.
    have keys : (apply key rows (.update before after)).map key = rows.map key := by
      rw [apply, List.map_map]
      refine List.map_congr_left fun row _ => ?_
      by_cases same : key row = key before
      · simp [same, legal.2]
      · simp [same]
    rwa [keys]
  -- Fewer rows have fewer keys.
  | delete before => exact distinct.sublist (List.filter_sublist.map key)

/-- A legal change only affects the row under its own key. -/
theorem lookup_apply {rows : List ρ} (distinct : (rows.map key).Nodup) {change : RowChange ρ}
    (legal : change.Legal key rows) (k : κ) :
    lookup key (change.apply key rows) k =
      if key change.subject = k then change.applyAt (lookup key rows k) else lookup key rows k := by
  cases change with
  | insert after =>
    by_cases here : key after = k
    -- The new row is the first one with its key, since it is the only one.
    · have absent : lookup key rows k = none := lookup_eq_none.mpr (here ▸ legal)
      unfold lookup at absent ⊢
      simp [apply, applyAt, subject, here, List.find?_append, absent]
    · simp [lookup, apply, subject, here, List.find?_append]
  | update before after =>
    -- Replacing keeps all keys, so looking up and replacing commute.
    have keys : ∀ old, key (if key old = key before then after else old) = key old := by
      intro old
      by_cases same : key old = key before <;> simp [same, legal.2]
    have commute : lookup key (apply key rows (.update before after)) k =
        (lookup key rows k).map fun row => if key row = key before then after else row := by
      simp only [lookup, apply, List.find?_map, Function.comp_def, keys]
    rw [commute]
    cases found : lookup key rows k with
    | none => simp [applyAt]
    | some row =>
      have rowKey : key row = k := ((lookup_eq_some distinct).mp found).2
      by_cases here : key before = k
      · simp [applyAt, subject, here, rowKey]
      · simp [subject, here, rowKey, Ne.symm here]
  -- Rows with another key pass the filter, so the search finds what it found before.
  | delete before =>
    by_cases here : key before = k
    · simp [lookup, apply, applyAt, subject, here]
    · simp only [lookup, apply, subject, here, if_false, List.find?_filter]
      congr 1
      funext row
      by_cases same : key row = k
      · simp [same, Ne.symm here]
      · simp [same]

/-- A history is legal exactly when it is legal for every key on its own. -/
theorem legalRun_iff {rows : List ρ} (distinct : (rows.map key).Nodup)
    (changes : List (RowChange ρ)) :
    LegalRun key rows changes ↔ ∀ k, LegalRunAt key (lookup key rows k) (about key k changes) := by
  -- The rows vary along the history, so they stay quantified over.
  induction changes generalizing rows with
  | nil => simp [LegalRun, LegalRunAt, about]
  | cons change changes ih =>
    have split : ∀ k, change.Legal key rows →
        (LegalRunAt key (lookup key rows k) (about key k (change :: changes)) ↔
          LegalRunAt key (lookup key (change.apply key rows) k) (about key k changes)) := by
      -- Only the history of its own key starts with the change.
      intro k legal
      by_cases here : key change.subject = k
      · have first := (legal_iff distinct change).mp legal
        simp only [about, List.filter_cons, here, decide_true, if_true, LegalRunAt,
          lookup_apply distinct legal]
        rw [here] at first
        exact and_iff_right first
      · simp [about, here, lookup_apply distinct legal]
    constructor
    · intro run k
      obtain ⟨legal, rest⟩ := run
      exact (split k legal).mpr ((ih (distinct_apply distinct legal)).mp rest k)
    -- The key of the change itself shows that the change is legal.
    · intro every
      have own := every (key change.subject)
      simp only [about, List.filter_cons, decide_true, if_true, LegalRunAt] at own
      have legal := (legal_iff distinct change).mpr own.1
      exact ⟨legal, (ih (distinct_apply distinct legal)).mpr
        fun k => (split k legal).mp (every k)⟩

/-- The row that a legal history leaves under a key only depends on the changes of that key. -/
theorem lookup_replay {rows : List ρ} (distinct : (rows.map key).Nodup)
    {changes : List (RowChange ρ)} (legal : LegalRun key rows changes) (k : κ) :
    lookup key (replay key rows changes) k =
      (about key k changes).foldl applyAt (lookup key rows k) := by
  -- Each change acts on the row under its own key, and only there.
  induction changes generalizing rows with
  | nil => rfl
  | cons change changes ih =>
    have rest := ih (distinct_apply distinct legal.1) legal.2
    rw [replay, List.foldl_cons, ← replay, rest, lookup_apply distinct legal.1]
    by_cases here : key change.subject = k <;> simp [about, here]

/-- A legal history keeps the keys distinct. -/
theorem distinct_replay {rows : List ρ} (distinct : (rows.map key).Nodup)
    {changes : List (RowChange ρ)} (legal : LegalRun key rows changes) :
    ((replay key rows changes).map key).Nodup := by
  -- Every change of a legal history keeps the keys distinct.
  induction changes generalizing rows with
  | nil => exact distinct
  | cons change changes ih => exact ih (distinct_apply distinct legal.1) legal.2

/-- A history after another one starts from the rows that the other one leaves. -/
theorem replay_append (rows : List ρ) (first second : List (RowChange ρ)) :
    replay key rows (first ++ second) = replay key (replay key rows first) second :=
  List.foldl_append

/-- A history is legal when its second part is legal after the first one. -/
theorem legalRun_append (rows : List ρ) (first second : List (RowChange ρ)) :
    LegalRun key rows (first ++ second) ↔
      LegalRun key rows first ∧ LegalRun key (replay key rows first) second := by
  -- The rows move along with the changes of the first part.
  induction first generalizing rows with
  | nil => simp [LegalRun, replay]
  | cons change first ih => simp [LegalRun, ih, and_assoc, replay]

/-- Updates and deletes that are applied again change nothing. -/
theorem apply_again {change : RowChange ρ} (overwrites : ∀ after, change ≠ .insert after)
    (rows : List ρ) : change.apply key (change.apply key rows) = change.apply key rows := by
  cases change with
  | insert after => exact absurd rfl (overwrites after)
  -- A row that was replaced is replaced by the same row, if at all.
  | update before after =>
    simp only [apply, List.map_map]
    refine List.map_congr_left fun row _ => ?_
    by_cases same : key row = key before <;> simp [same]
  | delete before => simp [apply]

/-- Histories that agree on every key have the same changes. -/
theorem mem_of_about {first second : List (RowChange ρ)}
    (same : ∀ k, about key k first = about key k second) {change : RowChange ρ}
    (member : change ∈ first) : change ∈ second := by
  -- A change is among the changes of its own key.
  have own : change ∈ about key (key change.subject) first := by simp [about, member]
  rw [same] at own
  exact List.mem_of_mem_filter own

/-- A row after a change was there before or is an image of the change. -/
theorem mem_apply {rows : List ρ} {change : RowChange ρ} {row : ρ}
    (member : row ∈ change.apply key rows) : row ∈ rows ∨ row ∈ change.images := by
  cases change with
  | insert after => simpa [apply, images] using member
  -- A row of the changed table is an old row or the new one in its place.
  | update before after =>
    obtain ⟨old, there, rfl⟩ := List.mem_map.mp member
    by_cases same : key old = key before
    · exact Or.inr (by simp [same, images])
    · exact Or.inl (by simpa [same] using there)
  | delete before => exact Or.inl (List.mem_of_mem_filter member)

/-- A row after a history was there before or is an image of one of its changes. -/
theorem mem_replay {rows : List ρ} {changes : List (RowChange ρ)} {row : ρ}
    (member : row ∈ replay key rows changes) : row ∈ rows ∨ row ∈ changes.flatMap images := by
  -- The row is there after the first change, or the later ones bring it.
  induction changes generalizing rows with
  | nil => exact Or.inl member
  | cons change changes ih =>
    rcases ih member with there | later
    · exact (mem_apply there).imp id fun image => by simp [image]
    · exact Or.inr (List.mem_append_right _ later)

/--
Histories that agree on every key are equally legal and leave the same rows.

The changes of different keys may be interleaved in any way.
-/
theorem interleaving {rows : List ρ} (distinct : (rows.map key).Nodup)
    {history delivered : List (RowChange ρ)} (legal : LegalRun key rows history)
    (ordered : ∀ k, about key k delivered = about key k history) :
    LegalRun key rows delivered ∧
      (replay key rows delivered).Perm (replay key rows history) := by
  -- Legality and the final row are decided key by key, where the histories agree.
  have deliveredLegal : LegalRun key rows delivered := by
    rw [legalRun_iff distinct] at legal ⊢
    exact fun k => ordered k ▸ legal k
  refine ⟨deliveredLegal, perm_of_lookup (distinct_replay distinct deliveredLegal)
    (distinct_replay distinct legal) fun k => ?_⟩
  rw [lookup_replay distinct deliveredLegal, lookup_replay distinct legal, ordered]

end Key

end RowChange

end AivenExamples
