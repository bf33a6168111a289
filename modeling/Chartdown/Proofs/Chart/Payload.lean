import Chartdown.Proofs.Chart.Strict.Rules

/-!
# What the dialect leaves of a text

The rules of the dialect write and drop quotes, commas, square brackets and blanks. What a text
holds beside these is its payload, and no rule adds to it, drops any of it or changes its order. The
brackets that the first rule puts around a text stay where they are.

## Key results

- `exchanges_bareFieldName`, `exchanges_idleComma`: what a rule writes has the payload of the part
  that it replaces
- `payload_rewrapBrackets`, `payload_settle`: each rule conserves the payload
- `normalize_conserves`: so does the dialect, and it leaves a text in brackets
-/

namespace Chartdown.Chart

open Text DataText
open Strict (settle)

/-! ### Payload -/

/-- A quote, a comma, a square bracket or a blank. -/
def isWrapping (c : Char) : Bool := ['"', '\'', ',', '[', ']'].contains c || isBlank c

/-- What a text holds beside quotes, commas, square brackets and blanks. -/
def payload (s : List Char) : List Char := s.filter fun c => !isWrapping c

variable {s : List Char} {c : Char}

@[simp] theorem payload_append (s t : List Char) : payload (s ++ t) = payload s ++ payload t :=
  List.filter_append s t

theorem payload_of_isWrapping (h : ∀ c ∈ s, isWrapping c = true) : payload s = [] := by
  rw [payload, List.filter_eq_nil_iff]
  intro c hc
  simp [h c hc]

theorem payload_of_isBlank (h : ∀ c ∈ s, isBlank c = true) : payload s = [] := by
  apply payload_of_isWrapping
  intro c hc
  rw [isWrapping, h c hc, Bool.or_true]

theorem payload_cons_of_isWrapping (h : isWrapping c = true) (s : List Char) :
    payload (c :: s) = payload s :=
  List.filter_cons_of_neg (by simp [h])

theorem payload_trim (s : List Char) : payload (trim s) = payload s := by
  obtain ⟨front, back, hs, hfront, hback⟩ := exists_trim_eq s
  calc payload (trim s)
      = payload front ++ (payload (trim s) ++ payload back) := by
        rw [payload_of_isBlank hfront, payload_of_isBlank hback, List.nil_append, List.append_nil]
    _ = payload s := by rw [← payload_append, ← payload_append, ← hs]

/-! ### The outer brackets -/

theorem payload_rewrapBrackets (s : List Char) : payload (rewrapBrackets s) = payload s := by
  have hclosing : payload [']'] = [] := payload_of_isWrapping (by decide)
  have hdropped (u : List Char) :
      payload (if u.getLast? = some ']' then u.dropLast else u) = payload u := by
    split
    case isTrue hlast =>
      obtain ⟨t, rfl⟩ := List.getLast?_eq_some_iff.mp hlast
      rw [List.dropLast_concat, payload_append, hclosing, List.append_nil]
    case isFalse => rfl
  have hopened (u : List Char) :
      payload (if u.head? = some '[' then u else '[' :: u) = payload u := by
    split
    · rfl
    · exact payload_cons_of_isWrapping (by decide) u
  simp only [rewrapBrackets, payload_append, hopened, payload_trim, hdropped, hclosing,
    List.append_nil]

/-- The first rule puts a text in brackets. -/
theorem exists_rewrapBrackets_eq (s : List Char) : ∃ t, rewrapBrackets s = '[' :: (t ++ [']']) := by
  have hbracket (u : List Char) :
      ∃ t, (if u.head? = some '[' then u else '[' :: u) ++ [']'] = '[' :: (t ++ [']']) := by
    split
    case isTrue hhead =>
      obtain ⟨t, rfl⟩ := List.head?_eq_some_iff.mp hhead
      exact ⟨t, rfl⟩
    case isFalse => exact ⟨u, rfl⟩
  exact hbracket _

/-! ### The other rules -/

/-- A part without a closing bracket, and another one with the same payload. -/
structure Conserves (u w : List Char) : Prop where
  not_mem : ']' ∉ u
  payload_eq : payload w = payload u

theorem bracket_not_mem_of_isBlank (h : ∀ c ∈ s, isBlank c = true) : ']' ∉ s :=
  fun hmem => absurd (h ']' hmem) (by decide)

/-- A bare name gets quotes, and blanks behind it go. -/
theorem exchanges_bareFieldName : Exchanges bareFieldName Conserves := by
  intro before s r hr
  obtain ⟨-, role, blanks, back, rfl, hblanks, rfl⟩ := Dialect.bareFieldName_cases hr
  refine ⟨role.chars ++ (blanks ++ [':']), back, by simp, by simp [Nat.add_assoc], ?_, ?_⟩
  · rw [List.mem_append, List.mem_append, not_or, not_or]
    exact ⟨by cases role <;> decide, bracket_not_mem_of_isBlank hblanks, by decide⟩
  · show payload ('"' :: (role.chars ++ ['"', ':'])) = payload (role.chars ++ (blanks ++ [':']))
    rw [payload_cons_of_isWrapping (by decide), payload_append, payload_append, payload_append,
      payload_of_isBlank hblanks, payload_cons_of_isWrapping (by decide)]
    rfl

/-- A comma goes, and so do the blanks behind it. -/
theorem exchanges_idleComma : Exchanges idleComma Conserves := by
  intro before s r hr
  obtain ⟨blanks, d, back, rfl, hblanks, -, rfl⟩ := Dialect.idleComma_cases hr
  refine ⟨',' :: blanks, d :: back, rfl, rfl, ?_, ?_⟩
  · rw [List.mem_cons, not_or]
    exact ⟨by decide, bracket_not_mem_of_isBlank hblanks⟩
  · rw [payload_cons_of_isWrapping (by decide), payload_of_isBlank hblanks]
    rfl

theorem payload_replaceFrom {rule : Rule} (hrule : Exchanges rule Conserves) (before : Option Char)
    (s : List Char) : payload (replaceFrom rule before 0 s) = payload s :=
  (hrule.exchanged before s).filter_eq fun _ _ h => h.payload_eq

theorem getLast?_replaceFrom {rule : Rule} (hrule : Exchanges rule Conserves)
    (before : Option Char) (h : s.getLast? = some ']') :
    (replaceFrom rule before 0 s).getLast? = some ']' :=
  (hrule.exchanged before s).getLast? (fun _ _ h => h.not_mem) h

theorem payload_convertSingleQuotes (s : List Char) :
    payload (convertSingleQuotes s) = payload s := by
  induction s with
  | nil => rfl
  | cons c s ih =>
    rw [Dialect.convertSingleQuotes_cons]
    split
    case isTrue hquote =>
      rw [hquote, payload_cons_of_isWrapping (by decide),
        payload_cons_of_isWrapping (by decide), ih]
    case isFalse =>
      show payload ([c] ++ convertSingleQuotes s) = payload ([c] ++ s)
      rw [payload_append, payload_append, ih]

theorem getLast?_convertSingleQuotes (h : s.getLast? = some ']') :
    (convertSingleQuotes s).getLast? = some ']' := by
  rw [convertSingleQuotes, List.getLast?_map, h]
  rfl

/-! ### All rules together -/

/-- The rules behind the first one conserve the payload. -/
theorem payload_settle (before : Option Char) (s : List Char) :
    payload (settle before s) = payload s := by
  unfold settle
  rw [payload_replaceFrom exchanges_idleComma, payload_convertSingleQuotes,
    payload_replaceFrom exchanges_bareFieldName]

/-- They leave a closing bracket at the end. -/
theorem getLast?_settle (before : Option Char) (h : s.getLast? = some ']') :
    (settle before s).getLast? = some ']' := by
  apply getLast?_replaceFrom exchanges_idleComma
  apply getLast?_convertSingleQuotes
  exact getLast?_replaceFrom exchanges_bareFieldName before h

/-- The dialect leaves a text in brackets. -/
theorem exists_normalize_eq (s : List Char) : ∃ t, normalize s = '[' :: (t ++ [']']) := by
  obtain ⟨t, ht⟩ := exists_rewrapBrackets_eq s
  have hlast : (settle (some '[') (t ++ [']'])).getLast? = some ']' :=
    getLast?_settle (some '[') List.getLast?_concat
  obtain ⟨t', ht'⟩ := List.getLast?_eq_some_iff.mp hlast
  rw [Strict.normalize_eq_settle, ht, Strict.settle_mark (by decide), ht']
  exact ⟨t', rfl⟩

/-- The dialect puts a text in brackets, and beside quotes, commas, square brackets and blanks it
leaves all characters as they are and in their order. -/
theorem normalize_conserves (s : List Char) :
    (∃ t, normalize s = '[' :: (t ++ [']'])) ∧ payload (normalize s) = payload s := by
  constructor
  · exact exists_normalize_eq s
  · rw [Strict.normalize_eq_settle, payload_settle, payload_rewrapBrackets]

example : payload "[\x7bkey : 'a, b', value: -1.5,\x7d,]".toList =
    "\x7bkey:abvalue:-1.5\x7d".toList := by decide +kernel

end Chartdown.Chart
