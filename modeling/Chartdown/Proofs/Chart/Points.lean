import Chartdown.Chart.Point
import Mathlib.Data.List.Forall2

/-!
# Which items are points

An item of a data array describes a point when it is an object with a key and a value of the right
kinds and in range. A data array is read item by item, so it describes points exactly when every
item does.

## Key results

- `Point.ofJson_eq_ok_iff`: the items that describe a point, and the point they describe
- `decodePoints_eq_ok_iff`: the texts that describe points
-/

namespace Chartdown.Chart

open Text (Utf16)

/-- A key that is a number has a finite double. -/
def Key.IsFinite : Key → Prop
  | .text _ => True
  | .number n => n.toDouble.isFinite = true

instance : (k : Key) → Decidable k.IsFinite
  | .text _ => .isTrue trivial
  | .number n => inferInstanceAs (Decidable (n.toDouble.isFinite = true))

/-- An item describes a point: an object with a key, which is a string or a finite number, and a
value, which is a finite number and becomes a double. -/
def Point.Describes (item : Json) (p : Point) : Prop :=
  ∃ members n, item = .object members ∧
    Json.lookup (Utf16.ofString "key") members = some p.key.toJson ∧ p.key.IsFinite ∧
    Json.lookup (Utf16.ofString "value") members = some (.number n) ∧
    n.toDouble.isFinite = true ∧ p.value = .double n.toDouble

/-! ### Numbers and keys -/

theorem finiteDouble_eq_ok_iff {outOfRange notFinite : PointFault} {n : Number} {d : Double} :
    finiteDouble outOfRange notFinite n = .ok d ↔ n.toDouble.isFinite = true ∧ d = n.toDouble := by
  have hcheck : ∀ (e : Double) (fault : PointFault),
      (if e.isFinite then Except.ok e else .error fault) = .ok d ↔
        e.isFinite = true ∧ d = e := fun e fault => by
    by_cases he : e.isFinite = true <;> simp [he, eq_comm]
  cases n with
  | integer i => exact hcheck (Double.ofInt i) outOfRange
  | double e => exact hcheck e notFinite

theorem Key.ofJson?_eq_some_iff {v : Json} {k : Key} : Key.ofJson? v = some k ↔ v = k.toJson := by
  cases v <;> cases k <;> simp [ofJson?, toJson, eq_comm]

theorem Key.check_eq_ok_iff {k : Key} : k.check = .ok () ↔ k.IsFinite := by
  cases k with
  | text s => simp [check, IsFinite]
  | number n =>
    show ((finiteDouble .keyOutOfRange .keyNotFinite n).map fun _ => ()) = .ok () ↔
      n.toDouble.isFinite = true
    cases h : finiteDouble .keyOutOfRange .keyNotFinite n with
    | ok d => exact iff_of_true rfl (finiteDouble_eq_ok_iff.mp h).1
    | error e =>
      refine iff_of_false (fun h => by cases h) fun hn => ?_
      rw [finiteDouble_eq_ok_iff.mpr ⟨hn, rfl⟩] at h
      cases h

/-! ### Items -/

theorem Point.ofJson_eq_ok_iff {item : Json} {p : Point} :
    Point.ofJson item = .ok p ↔ Point.Describes item p := by
  constructor
  · -- Each check that could refuse the item leaves one part of the description.
    intro h
    cases item with
    | object members =>
      simp only [ofJson] at h
      cases hkey : Json.lookup (Utf16.ofString "key") members with
      | none => simp [hkey] at h
      | some key =>
        cases hvalue : Json.lookup (Utf16.ofString "value") members with
        | none => simp [hkey, hvalue] at h
        | some value =>
          simp only [hkey, hvalue] at h
          cases hk : Key.ofJson? key with
          | none => simp [hk] at h
          | some k =>
            simp only [hk] at h
            split at h
            · rename_i n
              cases hcheck : k.check with
              | error fault => simp [hcheck] at h
              | ok u =>
                cases hdouble : finiteDouble .valueOutOfRange .valueNotFinite n with
                | error fault => simp [hcheck, hdouble] at h
                | ok d =>
                  simp only [hcheck, hdouble, Except.ok.injEq] at h
                  subst h
                  obtain ⟨hfinite, rfl⟩ := finiteDouble_eq_ok_iff.mp hdouble
                  exact ⟨members, n, rfl, by rw [hkey, Key.ofJson?_eq_some_iff.mp hk],
                    Key.check_eq_ok_iff.mp hcheck, hvalue, hfinite, rfl⟩
            · exact nomatch h
    | _ => exact nomatch h
  · rintro ⟨members, n, rfl, hkey, hfinite, hvalue, hn, hpoint⟩
    have hdouble : finiteDouble .valueOutOfRange .valueNotFinite n = .ok n.toDouble :=
      finiteDouble_eq_ok_iff.mpr ⟨hn, rfl⟩
    simp only [ofJson, hkey, hvalue, Key.ofJson?_eq_some_iff.mpr rfl,
      Key.check_eq_ok_iff.mpr hfinite, hdouble, ← hpoint]

/-- An array is read item by item. -/
theorem pointsFrom_eq_ok_iff {index : Nat} {items : List Json} {points : List Point} :
    pointsFrom index items = .ok points ↔ List.Forall₂ Point.Describes items points := by
  induction items generalizing index points with
  | nil => simp [pointsFrom, eq_comm]
  | cons item rest ih =>
    rw [List.forall₂_cons_left_iff]
    -- Both sides are settled by the first item that is refused.
    cases hitem : Point.ofJson item with
    | error fault =>
      have hnot : ∀ p, ¬ Point.Describes item p := fun p hp => by
        rw [Point.ofJson_eq_ok_iff.mpr hp] at hitem
        exact nomatch hitem
      simp [pointsFrom, hitem, hnot]
    | ok p =>
      -- An item describes one point at most, so the point that was read is the one described.
      have hp : ∀ q, Point.Describes item q ↔ q = p := fun q => by
        rw [← Point.ofJson_eq_ok_iff, hitem, Except.ok.injEq, eq_comm]
      cases hrest : pointsFrom (index + 1) rest with
      | error e =>
        have hnot : ∀ ps, ¬ List.Forall₂ Point.Describes rest ps := fun ps hps => by
          rw [ih.mpr hps] at hrest
          exact nomatch hrest
        simp [pointsFrom, hitem, hrest, hnot]
      | ok ps =>
        have hps := ih.mp hrest
        simp only [pointsFrom, hitem, hrest, Except.ok.injEq, hp]
        constructor
        · rintro rfl
          exact ⟨p, ps, rfl, hps, rfl⟩
        · rintro ⟨q, qs, rfl, hqs, rfl⟩
          rw [← @ih (index + 1), hrest, Except.ok.injEq] at hqs
          rw [hqs]

theorem pointsOfJson_eq_ok_iff {v : Json} {points : List Point} :
    pointsOfJson v = .ok points ↔
      ∃ items, v = .array items ∧ items ≠ [] ∧ List.Forall₂ Point.Describes items points := by
  match v with
  | .array [] => simp [pointsOfJson]
  | .array (item :: rest) => simp [pointsOfJson, pointsFrom_eq_ok_iff]
  | .null | .bool _ | .number _ | .string _ | .object _ => simp [pointsOfJson]

/-- A text describes points when it is an array, not empty, of items that do. -/
theorem decodePoints_eq_ok_iff {s : List Char} {points : List Point} :
    decodePoints s = .ok points ↔
      ∃ items, Json.decode false s = .ok (.array items) ∧ items ≠ [] ∧
        List.Forall₂ Point.Describes items points := by
  cases h : Json.decode false s with
  | error e => simp [decodePoints, h]
  | ok v => simp [decodePoints, h, pointsOfJson_eq_ok_iff]

end Chartdown.Chart
