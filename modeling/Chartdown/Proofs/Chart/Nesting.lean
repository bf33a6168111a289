import Chartdown.Chart.Description
import Chartdown.Proofs.Text.Trim

/-!
# What a reader of an array goes past

The reader counts square brackets outside strings. A text is steady when the reader comes out of it
as it went in, without another count on the way: whatever its strings hold, no bracket of it counts.

## Key results

- `Steady.append`, `Steady.of_forall`, `Steady.quoted`: what is steady
- `closed_read_of_steady`, `closed_read_of_steady_cons`: until its closing bracket an array stays open
-/

namespace Chartdown.Chart.Nesting

/-- A text that the reader, outside strings, comes out of as it went in, with the same count on the
way. -/
def Steady (s : List Char) : Prop :=
  ∀ n : Nesting, n.inside = none →
    n.read s = n ∧ ∀ u, u <+: s → (n.read u).depth = n.depth ∧ (n.read u).opened = n.opened

theorem read_append (n : Nesting) (u v : List Char) : n.read (u ++ v) = (n.read u).read v :=
  List.foldl_append

theorem read_cons (n : Nesting) (c : Char) (s : List Char) :
    n.read (c :: s) = (n.step c).read s := rfl

theorem Steady.nil : Steady [] := by
  intro n _
  refine ⟨rfl, fun u hu => ?_⟩
  rw [List.prefix_nil.mp hu]
  exact ⟨rfl, rfl⟩

theorem Steady.append {u v : List Char} (hu : Steady u) (hv : Steady v) : Steady (u ++ v) := by
  intro n hn
  obtain ⟨huread, hucount⟩ := hu n hn
  obtain ⟨hvread, hvcount⟩ := hv n hn
  refine ⟨by rw [read_append, huread, hvread], fun w hw => ?_⟩
  -- A front of both ends in the first part, or it holds all of it and ends in the second.
  rcases List.prefix_or_prefix_of_prefix hw (List.prefix_append u v) with h | ⟨x, rfl⟩
  · exact hucount w h
  · rw [read_append, huread]
    exact hvcount x ((List.prefix_append_right_inj u).mp hw)

/-! ### Outside strings -/

/-- A character that the reader goes past wherever it is outside strings. -/
def IsPassed (c : Char) : Prop := c ≠ '\'' ∧ c ≠ '"' ∧ c ≠ '[' ∧ c ≠ ']'

instance (c : Char) : Decidable (IsPassed c) := inferInstanceAs (Decidable (_ ∧ _))

theorem step_of_isPassed {n : Nesting} (hn : n.inside = none) {c : Char} (hc : IsPassed c) :
    n.step c = n := by
  obtain ⟨hsingle, hdouble, hopen, hclose⟩ := hc
  simp [step, hn, hsingle, hdouble, hopen, hclose]

/-- A text without quotes and brackets is steady. -/
theorem Steady.of_forall {s : List Char} (hs : ∀ c ∈ s, IsPassed c) : Steady s := by
  have hread : ∀ {n : Nesting}, n.inside = none → ∀ {u : List Char}, (∀ c ∈ u, IsPassed c) →
      n.read u = n := by
    intro n hn u hu
    induction u with
    | nil => rfl
    | cons c u ih =>
      rw [List.forall_mem_cons] at hu
      rw [read_cons, step_of_isPassed hn hu.1, ih hu.2]
  intro n hn
  refine ⟨hread hn hs, fun u hu => ?_⟩
  rw [hread hn fun c hc => hs c (hu.subset hc)]
  exact ⟨rfl, rfl⟩

theorem Steady.cons {c : Char} {s : List Char} (hc : IsPassed c) (hs : Steady s) :
    Steady (c :: s) :=
  (Steady.of_forall (s := [c]) (by simpa using hc)).append hs

/-! ### Inside strings -/

/-- A text without a quote and a backslash leaves the reader inside the string. -/
theorem read_inside {n : Nesting} {q : Char} (hn : n.inside = some (q, false)) {s : List Char}
    (hs : ∀ c ∈ s, c ≠ q ∧ c ≠ '\\') : n.read s = n := by
  induction s with
  | nil => rfl
  | cons c s ih =>
    rw [List.forall_mem_cons] at hs
    have hstep : n.step c = n := by simp [step, hn, hs.1.1, hs.1.2]
    rw [read_cons, hstep, ih hs.2]

/-- A string is steady, whatever brackets it holds. -/
theorem Steady.quoted {q : Char} (hq : q = '\'' ∨ q = '"') {s : List Char}
    (hs : ∀ c ∈ s, c ≠ q ∧ c ≠ '\\') : Steady (q :: (s ++ [q])) := by
  intro n hn
  have hopen : n.step q = { n with inside := some (q, false) } := by simp [step, hn, hq]
  have hescape : q ≠ '\\' := by rcases hq with rfl | rfl <;> decide
  have hclose : ({ n with inside := some (q, false) } : Nesting).step q = n := by
    simp [step, hescape, ← hn]
  have hinside : ∀ {u : List Char}, (∀ c ∈ u, c ≠ q ∧ c ≠ '\\') →
      n.read (q :: u) = { n with inside := some (q, false) } := fun hu => by
    rw [read_cons, hopen, read_inside rfl hu]
  have hread : n.read (q :: (s ++ [q])) = n := by
    rw [← List.cons_append, read_append, hinside hs]
    exact hclose
  refine ⟨hread, fun u hu => ?_⟩
  -- A part of the string ends before its first quote, before its last one, or behind it.
  rw [← List.cons_append, List.prefix_concat_iff] at hu
  rcases hu with rfl | hu
  · rw [List.cons_append, hread]
    exact ⟨rfl, rfl⟩
  · cases u with
    | nil => exact ⟨rfl, rfl⟩
    | cons c u =>
      rw [List.cons_prefix_cons] at hu
      rw [hu.1, hinside fun d hd => hs d (hu.2.subset hd)]
      exact ⟨rfl, rfl⟩

/-! ### Arrays -/

theorem closed_eq_false_of_opened {n : Nesting} (h : n.opened = false) : n.closed = false := by
  simp [closed, h]

/-- An array without an opening bracket stays open. -/
theorem closed_read_of_steady {s u : List Char} (hs : Steady s) (hu : u <+: s) :
    (({} : Nesting).read u).closed = false :=
  closed_eq_false_of_opened ((hs {} rfl).2 u hu).2

/-- Behind its opening bracket an array stays open. -/
theorem closed_read_of_steady_cons {s u : List Char} (hs : Steady s) (hu : u <+: '[' :: s) :
    (({} : Nesting).read u).closed = false := by
  cases u with
  | nil => rfl
  | cons c u =>
    rw [List.cons_prefix_cons] at hu
    obtain ⟨rfl, hu⟩ := hu
    -- From one open bracket on, a steady text keeps the depth at one.
    obtain ⟨hdepth, hopened⟩ := (hs { depth := 1, opened := true } rfl).2 u hu
    have hstep : ({} : Nesting).step '[' = { depth := 1, opened := true } := by decide
    rw [read_cons, hstep, closed, hdepth]
    simp

/-- The closing bracket completes the array. -/
theorem closed_read_brackets {s : List Char} (hs : Steady s) :
    (({} : Nesting).read ('[' :: (s ++ [']']))).closed = true := by
  have hstep : ({} : Nesting).step '[' = { depth := 1, opened := true } := by decide
  rw [read_cons, hstep, read_append, (hs _ rfl).1]
  decide

end Chartdown.Chart.Nesting
