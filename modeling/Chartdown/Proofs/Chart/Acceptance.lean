import Chartdown.Proofs.Chart.Payload
import Chartdown.Proofs.Chart.Points
import Chartdown.Proofs.Json.Constants
import Chartdown.Proofs.Json.RoundTrip

/-!
# Which texts are data

A text is data when it is decoded, without constants that stand for no finite number, to an array
that is not empty and whose items are points all of them. Any other text is refused; an array for
its first item that is no point. What the rules of the dialect leave is always an array if it is
decoded at all, since it starts with a bracket.

## Key results

- `pointsFrom_eq_error_iff`: an array is refused for its first item that is no point
- `decodePoints_spec`: the texts that are data, and what the others are refused for
-/

namespace Chartdown.Chart

open DataText

/-- A text is decoded to an array, not empty, whose items describe the points one by one, and it
holds no constant. -/
def IsData (s : List Char) (points : List Point) : Prop :=
  ∃ items, Json.decode true s = .ok (.array items) ∧
    (∀ name, Json.decode false s ≠ .error (.constant name)) ∧ items ≠ [] ∧
    List.Forall₂ Point.Describes items points

/-- An item describes a point. -/
def IsPoint (item : Json) : Prop := ∃ p, Point.Describes item p

theorem isPoint_iff {item : Json} : IsPoint item ↔ ∃ p, Point.ofJson item = .ok p := by
  simp only [IsPoint, Point.ofJson_eq_ok_iff]

theorem not_isPoint_iff {item : Json} :
    ¬ IsPoint item ↔ ∃ fault, Point.ofJson item = .error fault := by
  rw [isPoint_iff]
  cases Point.ofJson item <;> simp

/-- Items are looked at up to the first one that is no point. -/
theorem pointsFrom_append_cons {front : List Json} {item : Json} {fault : PointFault}
    (hfront : ∀ x ∈ front, IsPoint x) (hitem : Point.ofJson item = .error fault) (index : Nat)
    (back : List Json) :
    pointsFrom index (front ++ item :: back) = .error (.point (index + front.length) fault) := by
  induction front generalizing index with
  | nil => simp only [List.nil_append, pointsFrom, hitem, List.length_nil, Nat.add_zero]
  | cons x front ih =>
    rw [List.forall_mem_cons] at hfront
    obtain ⟨p, hp⟩ := isPoint_iff.mp hfront.1
    simp only [List.cons_append, pointsFrom, hp, ih hfront.2]
    rw [List.length_cons, Nat.add_right_comm, Nat.add_assoc]

theorem exists_of_pointsFrom_eq_error {index : Nat} {items : List Json} {e : DataError}
    (h : pointsFrom index items = .error e) :
    ∃ front item back fault, items = front ++ item :: back ∧ (∀ x ∈ front, IsPoint x) ∧
      Point.ofJson item = .error fault := by
  induction items generalizing index e with
  | nil => cases h
  | cons first rest ih =>
    cases hfirst : Point.ofJson first with
    | error fault => exact ⟨[], first, rest, fault, rfl, List.forall_mem_nil _, hfirst⟩
    | ok p =>
      cases hrest : pointsFrom (index + 1) rest with
      | ok points => simp [pointsFrom, hfirst, hrest] at h
      | error e' =>
        obtain ⟨front, item, back, fault, rfl, hfront, hitem⟩ := ih hrest
        exact ⟨first :: front, item, back, fault, rfl,
          List.forall_mem_cons.mpr ⟨isPoint_iff.mpr ⟨p, hfirst⟩, hfront⟩, hitem⟩

/-- An array is refused for its first item that is no point. -/
theorem pointsFrom_eq_error_iff {index : Nat} {items : List Json} {e : DataError} :
    pointsFrom index items = .error e ↔
      ∃ front item back fault, items = front ++ item :: back ∧ (∀ x ∈ front, IsPoint x) ∧
        Point.ofJson item = .error fault ∧ e = .point (index + front.length) fault := by
  constructor
  · intro h
    obtain ⟨front, item, back, fault, rfl, hfront, hitem⟩ := exists_of_pointsFrom_eq_error h
    rw [pointsFrom_append_cons hfront hitem] at h
    exact ⟨front, item, back, fault, rfl, hfront, hitem, (Except.error.inj h).symm⟩
  · rintro ⟨front, item, back, fault, rfl, hfront, hitem, rfl⟩
    exact pointsFrom_append_cons hfront hitem index back

/-! ### Arrays -/

theorem exists_array_of_decode {constants : Bool} {s : List Char} {v : Json}
    (h : Json.decode constants ('[' :: s) = .ok v) : ∃ items, v = .array items := by
  obtain ⟨rest, hread, -⟩ := Json.exists_of_decode h
  rw [Json.skipSpace_cons (by decide), Json.depthLimit] at hread
  rcases Json.readValue_array_eq_ok_iff.mp hread with ⟨-, hv⟩ | ⟨-, items, -, hv⟩
  · exact ⟨[], hv⟩
  · exact ⟨items, hv⟩

/-! ### Data -/

theorem decodePoints_eq_ok_iff_isData {s : List Char} {points : List Point} :
    decodePoints s = .ok points ↔ IsData s points := by
  simp only [decodePoints_eq_ok_iff, IsData, Json.decode_false_eq_ok_iff, and_assoc]

theorem decodePoints_of_array {s : List Char} {items : List Json}
    (h : Json.decode false s = .ok (.array items)) (hne : items ≠ []) :
    decodePoints s = pointsFrom 0 items := by
  obtain ⟨item, rest, rfl⟩ := List.exists_cons_of_ne_nil hne
  simp only [decodePoints, h, pointsOfJson]

/-- No array is refused for being something else. -/
theorem pointsOfJson_array_ne (items : List Json) (kind : Json.Kind) :
    pointsOfJson (.array items) ≠ .error (.notArray kind) := by
  cases items with
  | nil => nofun
  | cons item rest =>
    intro h
    obtain ⟨_, _, _, _, -, -, -, he⟩ := pointsFrom_eq_error_iff.mp h
    cases he

theorem decodePoints_normalize_ne_notArray (s : List Char) (kind : Json.Kind) :
    decodePoints (normalize s) ≠ .error (.notArray kind) := by
  -- Whatever starts with a bracket is decoded to an array, if it is decoded at all.
  obtain ⟨t, ht⟩ := exists_normalize_eq s
  rw [ht, decodePoints]
  cases hdecode : Json.decode false ('[' :: (t ++ [']'])) with
  | error e => simp
  | ok v =>
    obtain ⟨items, rfl⟩ := exists_array_of_decode hdecode
    exact pointsOfJson_array_ne items kind

/-- A text gives points exactly if it is data for them, and is refused otherwise: an array that is
not empty for its first item that is no point, whose index the error names. What the rules of the
dialect leave is never refused for not being an array. -/
theorem decodePoints_spec (s : List Char) :
    (∀ points, decodePoints s = .ok points ↔ IsData s points) ∧
    ((∃ e, decodePoints s = .error e) ↔ ∀ points, ¬ IsData s points) ∧
    (∀ items, Json.decode false s = .ok (.array items) → items ≠ [] → ∀ e,
      decodePoints s = .error e ↔ ∃ front item back fault, items = front ++ item :: back ∧
        (∀ x ∈ front, IsPoint x) ∧ ¬ IsPoint item ∧ Point.ofJson item = .error fault ∧
        e = .point front.length fault) ∧
    (∀ index fault, (DataError.point index fault).message =
      "point " ++ index.repr ++ fault.message) ∧
    ∀ kind, decodePoints (normalize s) ≠ .error (.notArray kind) := by
  refine ⟨fun points => decodePoints_eq_ok_iff_isData, ?_, fun items hitems hne e => ?_,
    fun _ _ => rfl, decodePoints_normalize_ne_notArray s⟩
  · simp only [← decodePoints_eq_ok_iff_isData]
    cases decodePoints s <;> simp
  · rw [decodePoints_of_array hitems hne, pointsFrom_eq_error_iff]
    constructor
    · rintro ⟨front, item, back, fault, hsplit, hfront, hitem, rfl⟩
      exact ⟨front, item, back, fault, hsplit, hfront, not_isPoint_iff.mpr ⟨fault, hitem⟩, hitem,
        by rw [Nat.zero_add]⟩
    · rintro ⟨front, item, back, fault, hsplit, hfront, -, hitem, rfl⟩
      exact ⟨front, item, back, fault, hsplit, hfront, hitem, by rw [Nat.zero_add]⟩

/-- An item with a key and a value. -/
def itemOf (key value : Json) : Json := .ofMembers [("key", key), ("value", value)]

/-- A point, and an item with a truth value in place of its key. -/
def truthKeyed : List Json :=
  [itemOf (.ofString "a") (.ofInt 1), itemOf (.bool true) (.ofInt 2)]

/-- A truth value is no key: the array is refused for its second item. -/
theorem decodePoints_spec_truthKey :
    Json.decode false (Json.text (.array truthKeyed)) = .ok (.array truthKeyed) ∧
      truthKeyed ≠ [] ∧
      decodePoints (Json.text (.array truthKeyed)) = .error (.point 1 (.keyKind .bool)) := by
  have hportable : Json.isPortable Json.depthLimit (.array truthKeyed) = true := by decide +kernel
  have hdecode := Json.decode_text_self false hportable
  have hfirst : Point.ofJson (itemOf (.ofString "a") (.ofInt 1)) =
      .ok ⟨.text (Text.Utf16.ofString "a"), .double (Double.ofInt 1)⟩ := by decide +kernel
  have hsecond : Point.ofJson (itemOf (.bool true) (.ofInt 2)) = .error (.keyKind .bool) := by
    decide +kernel
  refine ⟨hdecode, List.cons_ne_nil _ _, ?_⟩
  refine ((decodePoints_spec _).2.2.1 _ hdecode (List.cons_ne_nil _ _) _).mpr
    ⟨[_], _, [], _, rfl, ?_, not_isPoint_iff.mpr ⟨_, hsecond⟩, hsecond, rfl⟩
  exact List.forall_mem_singleton.mpr (isPoint_iff.mpr ⟨_, hfirst⟩)

end Chartdown.Chart
