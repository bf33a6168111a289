import Chartdown.Proofs.Json.RoundTrip
import Chartdown.Proofs.Number.Range
import Mathlib.Data.List.Nodup

/-!
# Values that are put together

A value is put together from texts, numbers, arrays and objects whose names are given as text. It
can be written and read back if its parts can, and its parts are found again under their names.

## Key results

- `isPortable_array_iff`, `isPortable_ofMembers_iff`: a value is portable if its parts are
- `isPortable_number`: so is a number that has a finite double
- `obstacle?_array_eq_none_iff`, `obstacle?_ofMembers_eq_none_iff`: a value can be written if its parts
  can
- `at?_ofMembers_cons`: where a path of names leads
-/

namespace Chartdown.Json

open Text (Utf16)

/-! ### Portable parts -/

theorem itemsPortable_iff {depth : Nat} {items : List Json} :
    itemsPortable depth items = true ↔ ∀ v ∈ items, isPortable depth v = true := by
  induction items with
  | nil => simp [itemsPortable]
  | cons v rest ih => rw [itemsPortable, Bool.and_eq_true, ih, List.forall_mem_cons]

theorem membersPortable_iff {depth : Nat} {members : List (Utf16 × Json)} :
    membersPortable depth members = true ↔ ∀ m ∈ members, isPortable depth m.2 = true := by
  induction members with
  | nil => simp [membersPortable]
  | cons m rest ih =>
    obtain ⟨name, v⟩ := m
    rw [membersPortable, Bool.and_eq_true, ih, List.forall_mem_cons]

theorem isPortable_array_iff {depth : Nat} {items : List Json} :
    isPortable (depth + 1) (.array items) = true ↔ ∀ v ∈ items, isPortable depth v = true := by
  rw [isPortable, itemsPortable_iff]

theorem isPortable_ofMembers_iff {depth : Nat} {members : List (String × Json)} :
    isPortable (depth + 1) (ofMembers members) = true ↔
      (members.map (·.1)).Nodup ∧ ∀ m ∈ members, isPortable depth m.2 = true := by
  have hinjective : Function.Injective Utf16.ofString := fun _ _ => Utf16.ofString_inj.mp
  have hnames : ((members.map fun m => (Utf16.ofString m.1, m.2)).map (·.1)) =
      (members.map (·.1)).map Utf16.ofString := by
    rw [List.map_map, List.map_map]
    rfl
  rw [ofMembers, isPortable, Bool.and_eq_true, decide_eq_true_eq, membersPortable_iff,
    List.forall_mem_map, hnames, List.nodup_map_iff hinjective]

@[simp] theorem isPortable_ofString (depth : Nat) (s : String) :
    isPortable depth (ofString s) = true := by
  rw [ofString, isPortable]

@[simp] theorem isPortable_bool (depth : Nat) (b : Bool) : isPortable depth (.bool b) = true := by
  rw [isPortable]

/-- A number that has a finite double has not too many digits. -/
theorem isPortable_number {n : Number} (h : n.toDouble.isFinite = true) (depth : Nat) :
    isPortable depth (.number n) = true := by
  cases n with
  | integer i =>
    have hdigits := Double.length_digitsOf_le_of_isFinite_ofInt h
    rw [isPortable, decide_eq_true_eq, digitLimit]
    omega
  | double d =>
    rw [isPortable]
    exact h

/-! ### Parts that can be written -/

/-- Whether a number can be written in standard JSON: it has not too many digits, or a value. -/
def IsWritable : Number → Prop
  | .integer n => (digitsOf n.natAbs).length ≤ digitLimit
  | .double d => d.isFinite = true

instance : DecidablePred IsWritable
  | .integer _ => inferInstanceAs (Decidable (_ ≤ _))
  | .double _ => inferInstanceAs (Decidable (_ = _))

theorem obstacle?_number_eq_none_iff {n : Number} :
    obstacle? false (.number n) = none ↔ IsWritable n := by
  cases n <;> simp [obstacle?, numberObstacle?, IsWritable]

/-- A number that can be written can be read back. -/
theorem isPortable_number_iff {n : Number} {depth : Nat} :
    isPortable depth (.number n) = true ↔ IsWritable n := by
  cases n <;> simp [isPortable, IsWritable]

theorem obstacle?_array_eq_none_iff {constants : Bool} {items : List Json} :
    obstacle? constants (.array items) = none ↔ ∀ v ∈ items, obstacle? constants v = none := by
  rw [obstacle?]
  induction items with
  | nil => simp [itemsObstacle?]
  | cons v rest ih => rw [itemsObstacle?, Option.or_eq_none_iff, ih, List.forall_mem_cons]

theorem obstacle?_ofMembers_eq_none_iff {constants : Bool} {members : List (String × Json)} :
    obstacle? constants (ofMembers members) = none ↔
      ∀ m ∈ members, obstacle? constants m.2 = none := by
  rw [ofMembers, obstacle?]
  induction members with
  | nil => simp [membersObstacle?]
  | cons m rest ih =>
    rw [List.map_cons, membersObstacle?, Option.or_eq_none_iff, ih, List.forall_mem_cons]

@[simp] theorem obstacle?_ofString (constants : Bool) (s : String) :
    obstacle? constants (ofString s) = none := rfl

/-! ### Paths -/

/-- The value that names lead to, from one object to the next. -/
def at? : List String → Json → Option Json
  | [], v => some v
  | name :: path, .object members => (lookup (Utf16.ofString name) members).bind (at? path)
  | _ :: _, _ => none

@[simp] theorem at?_nil (v : Json) : at? [] v = some v := rfl

@[simp] theorem at?_ofMembers_nil (name : String) (path : List String) :
    at? (name :: path) (ofMembers []) = none := rfl

/-- A name leads to its first member. -/
@[simp] theorem at?_ofMembers_cons (name : String) (path : List String) (m : String × Json)
    (members : List (String × Json)) :
    at? (name :: path) (ofMembers (m :: members)) =
      if m.1 = name then at? path m.2 else at? (name :: path) (ofMembers members) := by
  by_cases h : m.1 = name
  · simp [at?, ofMembers, lookup, h]
  · have hunits : Utf16.ofString m.1 ≠ Utf16.ofString name := mt Utf16.ofString_inj.mp h
    simp [at?, ofMembers, lookup, h, hunits]

end Chartdown.Json
