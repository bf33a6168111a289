import Chartdown.Proofs.Json.Reading

/-!
# Reading two texts in lockstep

Two texts that are alike up to some place are read alike up to it. `Lockstep R parts` says of a
relation between texts that it is of that kind: related texts start with the same character, and
behind it they are related again, unless it is one at which texts may part. Texts may part at a
line feed, which no token holds, or at a quote, which no token holds but strings. So numbers and
words are the same in both texts, and the rests behind them are related.

## Key results

- `Lockstep.exists_readNumber`: numbers
- `Lockstep.exists_readPlain`: all values that hold no others, except for strings
-/

namespace Chartdown.Json

variable {s t u r rest rest' rest'' : List Char}

/-! ### Parts of numbers -/

theorem readFraction_eq_nil (h : ∀ d r, s = '.' :: d :: r → d.isDigit = false) :
    readFraction s = ([], s) := by
  unfold readFraction
  split
  · rw [if_neg (by simp [h _ _ rfl])]
  · rfl

/-- The sign of an exponent, which is there if it can be, and what follows it. -/
def IsSigned (sign ds : List Char) : Prop :=
  sign = ['-'] ∨ sign = ['+'] ∨ sign = [] ∧ ds.head? ≠ some '-' ∧ ds.head? ≠ some '+'

theorem exists_isSigned (s : List Char) : ∃ sign ds, s = sign ++ ds ∧ IsSigned sign ds := by
  by_cases hminus : s.head? = some '-'
  · obtain ⟨ds, rfl⟩ := List.head?_eq_some_iff.mp hminus
    exact ⟨['-'], ds, rfl, .inl rfl⟩
  by_cases hplus : s.head? = some '+'
  · obtain ⟨ds, rfl⟩ := List.head?_eq_some_iff.mp hplus
    exact ⟨['+'], ds, rfl, .inr (.inl rfl)⟩
  · exact ⟨[], s, rfl, .inr (.inr ⟨rfl, hminus, hplus⟩)⟩

theorem readExponent_cons {c : Char} {sign ds : List Char} (hmark : c = 'e' ∨ c = 'E')
    (hsign : IsSigned sign ds) : readExponent (c :: (sign ++ ds)) =
      if (ds.takeWhile Char.isDigit).isEmpty then (none, c :: (sign ++ ds))
      else (some (sign == ['-'], ds.takeWhile Char.isDigit), ds.dropWhile Char.isDigit) := by
  unfold readExponent
  simp only [if_pos hmark]
  rcases hsign with rfl | rfl | ⟨rfl, hminus, hplus⟩
  · rfl
  · rfl
  · rw [List.nil_append]
    split
    · exact absurd rfl hminus
    · exact absurd rfl hplus
    · rfl

theorem readExponent_eq_none (h : ∀ c r, s = c :: r → ¬ (c = 'e' ∨ c = 'E')) :
    readExponent s = (none, s) := by
  unfold readExponent
  split
  · rfl
  · rw [if_neg (h _ _ rfl)]

/-- A number that was read is a magnitude, with a minus in front of it or without one. -/
theorem readNumber_eq_ok_iff {v : Json} : readNumber s = .ok (v, rest) ↔
    ∃ n, v = .number n ∧ ((∃ r, s = '-' :: r ∧ readMagnitude true r = some (.ok n, rest)) ∨
      s.head? ≠ some '-' ∧ readMagnitude false s = some (.ok n, rest)) := by
  constructor
  · intro h
    unfold readNumber at h
    split at h
    · rename_i r
      cases hmagnitude : readMagnitude true r with
      | none => simp [hmagnitude] at h
      | some first =>
        obtain ⟨n | n, r'⟩ := first
        · simp [hmagnitude] at h
        · simp only [hmagnitude] at h
          cases h
          exact ⟨n, rfl, .inl ⟨r, rfl, hmagnitude⟩⟩
    · rename_i hminus
      have hhead : s.head? ≠ some '-' := by
        intro hs
        obtain ⟨r, rfl⟩ := List.head?_eq_some_iff.mp hs
        exact hminus r rfl
      cases hmagnitude : readMagnitude false s with
      | none => simp [hmagnitude] at h
      | some first =>
        obtain ⟨n | n, r'⟩ := first
        · simp [hmagnitude] at h
        · simp only [hmagnitude] at h
          cases h
          exact ⟨n, rfl, .inr ⟨hhead, rfl⟩⟩
  · rintro ⟨n, rfl, ⟨r, rfl, hmagnitude⟩ | ⟨hminus, hmagnitude⟩⟩
    · simp only [readNumber, hmagnitude]
    · unfold readNumber
      split
      · exact absurd rfl hminus
      · simp only [hmagnitude]

/-! ### Strings and words -/

theorem readConstant_eq_ok_iff {constants : Bool} {name : String} {d : Double} {v : Json} :
    readConstant constants name d s = .ok (v, rest) ↔
      constants = true ∧ v = .number (.double d) ∧ rest = s := by
  rw [readConstant]
  split
  case isTrue h => simp [h, eq_comm]
  case isFalse h => simp [h]

theorem readPlain_string_eq_ok_iff {constants : Bool} {v : Json} :
    readPlain constants ('"' :: s) = .ok (v, rest) ↔
      ∃ us, v = .string us ∧ readString (s.length + 1) s = .ok (us, rest) := by
  rw [readPlain, List.length_cons]
  cases hstring : readString (s.length + 1) s with
  | error e => simp
  | ok first =>
    obtain ⟨us, r⟩ := first
    constructor
    · intro h
      cases h
      exact ⟨us, rfl, rfl⟩
    · rintro ⟨us', rfl, h⟩
      cases h
      rfl

/-- The words that are values. -/
def words : List (List Char) :=
  ["null".toList, "true".toList, "false".toList, "NaN".toList, "Infinity".toList,
    "-Infinity".toList]

theorem readPlain_eq_readNumber (constants : Bool) (hquote : s.head? ≠ some '"')
    (h : ∀ w ∈ words, ¬ w <+: s) : readPlain constants s = readNumber s := by
  have hno : ∀ {w r}, w ∈ words → s ≠ w ++ r := by
    rintro w r hw rfl
    exact h w hw (List.prefix_append w r)
  unfold readPlain
  split
  · exact absurd rfl hquote
  · exact absurd rfl (hno (w := "null".toList) (by decide))
  · exact absurd rfl (hno (w := "true".toList) (by decide))
  · exact absurd rfl (hno (w := "false".toList) (by decide))
  · exact absurd rfl (hno (w := "NaN".toList) (by decide))
  · exact absurd rfl (hno (w := "Infinity".toList) (by decide))
  · exact absurd rfl (hno (w := "-Infinity".toList) (by decide))
  · rfl

/-! ### Related texts -/

/-- Related texts go on alike up to a character at which they may part. -/
structure Lockstep (R : List Char → List Char → Prop) (parts : Char → Prop) : Prop where
  head?_eq : ∀ {s t}, R s t → s.head? = t.head?
  tail : ∀ {c s t}, ¬ parts c → R (c :: s) (c :: t) → R s t
  between : ∀ {c}, parts c → c = '\n' ∨ c = '"'

/-- What is left of a text behind a value that a related text has as well: the rests are related,
and this one is no longer than the text. -/
structure Leaves (R : List Char → List Char → Prop) (t rest rest' : List Char) : Prop where
  related : R rest rest'
  length_le : rest'.length ≤ t.length

namespace Leaves
variable {R : List Char → List Char → Prop}

theorem refl (h : R s t) : Leaves R t s t := ⟨h, Nat.le_refl _⟩

theorem trans (h : Leaves R t rest rest') (h' : Leaves R rest' r rest'') : Leaves R t r rest'' :=
  ⟨h'.related, h'.length_le.trans h.length_le⟩

theorem cons (c : Char) (h : Leaves R t rest rest') : Leaves R (c :: t) rest rest' :=
  ⟨h.related, h.length_le.trans (Nat.le_succ _)⟩

theorem append (u : List Char) (h : Leaves R t rest rest') : Leaves R (u ++ t) rest rest' :=
  ⟨h.related, h.length_le.trans (by rw [List.length_append]; exact Nat.le_add_left _ _)⟩

end Leaves

namespace Lockstep
variable {R : List Char → List Char → Prop} {parts : Char → Prop} (hR : Lockstep R parts)
include hR

theorem flip : Lockstep (fun s t => R t s) parts where
  head?_eq h := (hR.head?_eq h).symm
  tail hc h := hR.tail hc h
  between := hR.between

theorem eq_nil (h : R [] t) : t = [] := List.head?_eq_none_iff.mp (hR.head?_eq h).symm

theorem exists_of_cons {c : Char} (hc : ¬ parts c) (h : R (c :: s) t) : ∃ r, t = c :: r ∧ R s r := by
  obtain ⟨r, rfl⟩ := List.head?_eq_some_iff.mp ((hR.head?_eq h).symm.trans List.head?_cons)
  exact ⟨r, rfl, hR.tail hc h⟩

theorem exists_of_append (hu : ∀ c ∈ u, ¬ parts c) (h : R (u ++ s) t) : ∃ r, t = u ++ r ∧ R s r := by
  induction u generalizing t with
  | nil => exact ⟨t, rfl, h⟩
  | cons c u ih =>
    rw [List.forall_mem_cons] at hu
    obtain ⟨r, rfl, hr⟩ := hR.exists_of_cons hu.1 h
    obtain ⟨r', rfl, hr'⟩ := ih hu.2 hr
    exact ⟨r', rfl, hr'⟩

theorem isPrefix (hu : ∀ c ∈ u, ¬ parts c) (h : R s t) (hs : u <+: s) : u <+: t := by
  obtain ⟨r, rfl⟩ := hs
  obtain ⟨r', rfl, -⟩ := hR.exists_of_append hu h
  exact List.prefix_append u r'

theorem takeWhile_eq {p : Char → Bool} (hp : ∀ c, p c = true → ¬ parts c) (h : R s t) :
    s.takeWhile p = t.takeWhile p := by
  induction s generalizing t with
  | nil => rw [hR.eq_nil h]
  | cons c s ih =>
    by_cases hc : p c = true
    · obtain ⟨r, rfl, hr⟩ := hR.exists_of_cons (hp c hc) h
      rw [List.takeWhile_cons_of_pos hc, List.takeWhile_cons_of_pos hc, ih hr]
    · obtain ⟨r, rfl⟩ := List.head?_eq_some_iff.mp ((hR.head?_eq h).symm.trans List.head?_cons)
      rw [List.takeWhile_cons_of_neg hc, List.takeWhile_cons_of_neg hc]

theorem dropWhile {p : Char → Bool} (hp : ∀ c, p c = true → ¬ parts c) (h : R s t) :
    Leaves R t (s.dropWhile p) (t.dropWhile p) := by
  refine ⟨?_, (List.dropWhile_sublist p).length_le⟩
  induction s generalizing t with
  | nil =>
    obtain rfl := hR.eq_nil h
    exact h
  | cons c s ih =>
    by_cases hc : p c = true
    · obtain ⟨r, rfl, hr⟩ := hR.exists_of_cons (hp c hc) h
      rw [List.dropWhile_cons_of_pos hc, List.dropWhile_cons_of_pos hc]
      exact ih hr
    · obtain ⟨r, rfl⟩ := List.head?_eq_some_iff.mp ((hR.head?_eq h).symm.trans List.head?_cons)
      rwa [List.dropWhile_cons_of_neg hc, List.dropWhile_cons_of_neg hc]

theorem not_parts {c : Char} (hfeed : c ≠ '\n') (hquote : c ≠ '"') : ¬ parts c :=
  fun h => (hR.between h).elim hfeed hquote

theorem not_parts_of_isDigit {c : Char} (h : c.isDigit = true) : ¬ parts c := by
  refine hR.not_parts ?_ ?_
  all_goals
    rintro rfl
    exact absurd h (by decide)

/-! #### Numbers -/

theorem exists_readWhole {ds : List Char} (h : R s t) (hread : readWhole s = some (ds, rest)) :
    ∃ rest', readWhole t = some (ds, rest') ∧ Leaves R t rest rest' := by
  cases s with
  | nil => cases hread
  | cons c s =>
    rw [readWhole] at hread
    split at hread
    · rename_i hzero
      subst hzero
      obtain ⟨r, rfl, hr⟩ := hR.exists_of_cons (hR.not_parts (by decide) (by decide)) h
      cases hread
      exact ⟨r, rfl, (Leaves.refl hr).cons _⟩
    · split at hread
      · rename_i hzero hdigit
        obtain ⟨r, rfl, hr⟩ := hR.exists_of_cons (hR.not_parts_of_isDigit hdigit) h
        cases hread
        refine ⟨r.dropWhile Char.isDigit, ?_, (hR.dropWhile (fun _ => hR.not_parts_of_isDigit) hr).cons _⟩
        rw [readWhole, if_neg hzero, if_pos hdigit,
          hR.takeWhile_eq (fun _ => hR.not_parts_of_isDigit) hr]
      · cases hread

theorem exists_of_fraction {d : Char} (hd : d.isDigit = true) (h : R ('.' :: d :: s) t) :
    ∃ r, t = '.' :: d :: r ∧ R s r := by
  obtain ⟨r', rfl, hr'⟩ := hR.exists_of_cons (hR.not_parts (by decide) (by decide)) h
  obtain ⟨r, rfl, hr⟩ := hR.exists_of_cons (hR.not_parts_of_isDigit hd) hr'
  exact ⟨r, rfl, hr⟩

/-- There is a fraction in both texts or in none of them. -/
theorem exists_readFraction (h : R s t) : ∃ ds rest rest',
    readFraction s = (ds, rest) ∧ readFraction t = (ds, rest') ∧ Leaves R t rest rest' := by
  by_cases hs : ∃ d r, s = '.' :: d :: r ∧ d.isDigit = true
  · obtain ⟨d, r, rfl, hd⟩ := hs
    obtain ⟨r', rfl, hr⟩ := hR.exists_of_fraction hd h
    refine ⟨_, _, _, by rw [readFraction, if_pos hd], ?_,
      (hR.dropWhile (fun _ => hR.not_parts_of_isDigit) hr).append ['.', d]⟩
    rw [readFraction, if_pos hd, hR.takeWhile_eq (fun _ => hR.not_parts_of_isDigit) hr]
  · have hs' : ∀ d r, s = '.' :: d :: r → d.isDigit = false := fun d r hr => by
      by_contra hd
      exact hs ⟨d, r, hr, by simpa using hd⟩
    -- A fraction of the second text would be one of the first.
    have ht : ∀ d r, t = '.' :: d :: r → d.isDigit = false := by
      rintro d r rfl
      by_contra hd
      obtain ⟨r', hr', -⟩ := hR.flip.exists_of_fraction (by simpa using hd) h
      exact hs ⟨d, r', hr', by simpa using hd⟩
    exact ⟨[], s, t, readFraction_eq_nil hs', readFraction_eq_nil ht, .refl h⟩

theorem not_parts_of_mark {c : Char} (h : c = 'e' ∨ c = 'E') : ¬ parts c := by
  rcases h with rfl | rfl
  all_goals exact hR.not_parts (by decide) (by decide)

/-- There is an exponent in both texts or in none of them. -/
theorem exists_readExponent (h : R s t) : ∃ e rest rest',
    readExponent s = (e, rest) ∧ readExponent t = (e, rest') ∧ Leaves R t rest rest' := by
  by_cases hs : ∃ c r, s = c :: r ∧ (c = 'e' ∨ c = 'E')
  · obtain ⟨c, s', rfl, hmark⟩ := hs
    obtain ⟨t', rfl, ht'⟩ := hR.exists_of_cons (hR.not_parts_of_mark hmark) h
    obtain ⟨sign, ds, rfl, hsign⟩ := exists_isSigned s'
    have hparts : ∀ c ∈ sign, ¬ parts c := by
      rcases hsign with rfl | rfl | ⟨rfl, -⟩
      · exact List.forall_mem_singleton.mpr (hR.not_parts (by decide) (by decide))
      · exact List.forall_mem_singleton.mpr (hR.not_parts (by decide) (by decide))
      · exact List.forall_mem_nil _
    obtain ⟨ds', rfl, hds⟩ := hR.exists_of_append hparts ht'
    -- Behind the sign it depends on the digits alone whether there is an exponent.
    rw [readExponent_cons hmark hsign,
      readExponent_cons hmark (show IsSigned sign ds' by rwa [IsSigned, ← hR.head?_eq hds]),
      ← hR.takeWhile_eq (fun _ => hR.not_parts_of_isDigit) hds]
    split
    · exact ⟨none, _, _, rfl, rfl, .refl h⟩
    · exact ⟨_, _, _, rfl, rfl,
        ((hR.dropWhile (fun _ => hR.not_parts_of_isDigit) hds).append sign).cons c⟩
  · refine ⟨none, s, t, readExponent_eq_none fun c r hr hmark => hs ⟨c, r, hr, hmark⟩,
      readExponent_eq_none fun c r hr hmark => ?_, .refl h⟩
    obtain ⟨r', hr', -⟩ := hR.flip.exists_of_cons (hR.not_parts_of_mark hmark) (hr ▸ h)
    exact hs ⟨c, r', hr', hmark⟩

theorem exists_readMagnitude {negative : Bool} {n : Number} (h : R s t)
    (hread : readMagnitude negative s = some (.ok n, rest)) :
    ∃ rest', readMagnitude negative t = some (.ok n, rest') ∧ Leaves R t rest rest' := by
  rw [readMagnitude] at hread
  cases hwhole : readWhole s with
  | none => simp [hwhole] at hread
  | some first =>
    obtain ⟨whole, s₁⟩ := first
    obtain ⟨t₁, hwhole', h₁⟩ := hR.exists_readWhole h hwhole
    obtain ⟨fraction, s₂, t₂, hfraction, hfraction', h₂⟩ := hR.exists_readFraction h₁.related
    obtain ⟨exponent, s₃, t₃, hexponent, hexponent', h₃⟩ := hR.exists_readExponent h₂.related
    have hleaves : Leaves R t s₃ t₃ := (h₁.trans h₂).trans h₃
    simp only [hwhole, hfraction, hexponent, Option.bind_eq_bind, Option.bind_some] at hread
    rw [readMagnitude]
    simp only [hwhole', hfraction', hexponent', Option.bind_eq_bind, Option.bind_some]
    -- The value is made of the three parts alone.
    split at hread
    · rename_i hplain
      rw [if_pos hplain]
      split at hread
      · cases hread
      · rename_i hfew
        cases hread
        exact ⟨t₃, by rw [if_neg hfew]; rfl, hleaves⟩
    · rename_i hplain
      cases hread
      exact ⟨t₃, by rw [if_neg hplain]; rfl, hleaves⟩

theorem exists_readNumber {v : Json} (h : R s t) (hread : readNumber s = .ok (v, rest)) :
    ∃ rest', readNumber t = .ok (v, rest') ∧ Leaves R t rest rest' := by
  obtain ⟨n, rfl, hmagnitude⟩ := readNumber_eq_ok_iff.mp hread
  rcases hmagnitude with ⟨r, rfl, hmagnitude⟩ | ⟨hminus, hmagnitude⟩
  · obtain ⟨r', rfl, hr⟩ := hR.exists_of_cons (hR.not_parts (by decide) (by decide)) h
    obtain ⟨rest', hmagnitude', hrest⟩ := hR.exists_readMagnitude hr hmagnitude
    exact ⟨rest', readNumber_eq_ok_iff.mpr ⟨n, rfl, .inl ⟨r', rfl, hmagnitude'⟩⟩, hrest.cons _⟩
  · obtain ⟨rest', hmagnitude', hrest⟩ := hR.exists_readMagnitude h hmagnitude
    exact ⟨rest', readNumber_eq_ok_iff.mpr ⟨n, rfl, .inr ⟨hR.head?_eq h ▸ hminus, hmagnitude'⟩⟩,
      hrest⟩

/-! #### Values that hold no others -/

theorem not_parts_of_mem_words {w : List Char} (hw : w ∈ words) : ∀ c ∈ w, ¬ parts c := by
  have hall : ∀ w ∈ words, ∀ c ∈ w, c ≠ '\n' ∧ c ≠ '"' := by decide
  exact fun c hc => hR.not_parts (hall w hw c hc).1 (hall w hw c hc).2

/-- A value that is no string and holds no others is the same in both texts. -/
theorem exists_readPlain {constants : Bool} {v : Json} (h : R s t) (hquote : s.head? ≠ some '"')
    (hread : readPlain constants s = .ok (v, rest)) :
    ∃ rest', readPlain constants t = .ok (v, rest') ∧ Leaves R t rest rest' := by
  by_cases hnumber : ∀ w ∈ words, ¬ w <+: s
  · rw [readPlain_eq_readNumber constants hquote hnumber] at hread
    rw [readPlain_eq_readNumber constants (hR.head?_eq h ▸ hquote) fun w hw ht =>
      hnumber w hw (hR.flip.isPrefix (hR.not_parts_of_mem_words hw) h ht)]
    exact hR.exists_readNumber h hread
  · simp only [not_forall, not_not] at hnumber
    obtain ⟨w, hw, r, rfl⟩ := hnumber
    obtain ⟨r', rfl, hr⟩ := hR.exists_of_append (hR.not_parts_of_mem_words hw) h
    have hrest : Leaves R (w ++ r') r r' := (Leaves.refl hr).append w
    simp only [words, List.mem_cons, List.not_mem_nil, or_false] at hw
    rcases hw with rfl | rfl | rfl | rfl | rfl | rfl
    -- The words of JSON come first, and then those that stand for no finite number.
    iterate 3
      · cases hread
        exact ⟨r', rfl, hrest⟩
    all_goals
      obtain ⟨hconstants, rfl, rfl⟩ := readConstant_eq_ok_iff.mp hread
      exact ⟨r', readConstant_eq_ok_iff.mpr ⟨hconstants, rfl, rfl⟩, hrest⟩

end Lockstep

end Chartdown.Json
