import Chartdown.Proofs.Json.Spaced
import Chartdown.Proofs.Text.Replace

/-!
# A string in a slot

A text with a slot reads `front ++ slot content back`: what stands between the quotes is put in.
If the reader gets through the text with one word in the slot, then either it took the slot for a
string, and gets through with anything that can be written there, or the quote in front of the slot
ended a string, and it found the word itself where it looked for a mark and gave up.

So the value is a fixed frame around the string in the slot.

## Key results

- `Outcome`: where a reader stops, with a word in the slot
- `outcome_readString`, `outcome_readPlain`: strings and other values that hold none
- `Enumerates.outcome`: items and members, given where their parts stop
- `stops_readValue`: all values, by induction on the levels they may be nested
- `exists_frame_of_decode`: a text with a slot is decoded to a frame
-/

namespace Chartdown.Json

open Text (Utf16 exists_eq_append_of_not_mem)

/-- Between quotes, a text is read as a string, whatever follows. -/
def Writes (content : List Char) (us : Utf16) : Prop :=
  ∀ opening rest, readString opening (content ++ '"' :: rest) = .ok (us, rest)

/-- A slot with its content, and what stands behind it. -/
def slot (content back : List Char) : List Char := '"' :: (content ++ '"' :: back)

/-- A word that can stand in a slot, and that the reader cannot go on with outside of a string. -/
structure IsWord (word : List Char) (us : Utf16) : Prop where
  writes : Writes word us
  starts : ∀ c ∈ word.head?, isSpace c = false ∧ c ∉ [':', ',', ']', '\x7d']
  ne_nil : word ≠ []

/-- A value with a string in it somewhere, or with one at the end of a name. -/
inductive Frame : (Utf16 → Json) → Prop
  | string (us : Utf16) : Frame fun content => .string (us ++ content)
  | array {C : Utf16 → Json} (vs : List Json) (hC : Frame C) (ws : List Json) :
      Frame fun content => .array (vs ++ C content :: ws)
  | member {C : Utf16 → Json} (ms : List (Utf16 × Json)) (name : Utf16) (hC : Frame C)
      (ns : List (Utf16 × Json)) :
      Frame fun content => ofMemberList (ms ++ (name, C content) :: ns)
  | name (ms : List (Utf16 × Json)) (us : Utf16) (v : Json) (ns : List (Utf16 × Json)) :
      Frame fun content => ofMemberList (ms ++ (us ++ content, v) :: ns)

/-- Where a reader stops that reads a text with a word in its slot, and what it reads with other
things in the slot. -/
inductive Outcome {α : Type} (word back : List Char) (IsFrame : (Utf16 → α) → Prop)
    (Reads : List Char → α → List Char → Prop) (front rest : List Char) : Prop
  /-- In front of the slot. -/
  | ahead (v : α) (front' : List Char) (hrest : rest = front' ++ slot word back)
      (h : ∀ content us, Writes content us →
        Reads (front ++ slot content back) v (front' ++ slot content back))
  /-- Behind the slot. -/
  | filled (C : Utf16 → α) (hC : IsFrame C)
      (h : ∀ content us, Writes content us → Reads (front ++ slot content back) (C us) rest)
  /-- In the slot. -/
  | stuck (rest' : List Char) (hrest : rest = word ++ rest')

variable {word back front rest s r : List Char} {us : Utf16}

section Lift
variable {α β : Type} {IsFrame : (Utf16 → α) → Prop} {IsFrame' : (Utf16 → β) → Prop}
  {Reads : List Char → α → List Char → Prop} {Reads' : List Char → β → List Char → Prop}

/-- What is read of a text with a slot goes into what is read of a greater one. -/
theorem Outcome.lift (h : Outcome word back IsFrame Reads front rest) (front' : List Char)
    (f : α → β)
    (hreads : ∀ {content us v r}, Writes content us → Reads (front ++ slot content back) v r →
      Reads' (front' ++ slot content back) (f v) r)
    (hframe : ∀ {C}, IsFrame C → IsFrame' fun content => f (C content)) :
    Outcome word back IsFrame' Reads' front' rest := by
  cases h with
  | ahead v front'' hrest h =>
    exact .ahead (f v) front'' hrest fun content us hwrites => hreads hwrites (h content us hwrites)
  | filled C hC h =>
    exact .filled _ (hframe hC) fun content us hwrites => hreads hwrites (h content us hwrites)
  | stuck rest' hrest => exact .stuck rest' hrest

theorem Outcome.prepend (h : Outcome word back IsFrame Reads front rest) (u : List Char) (f : α → β)
    (hreads : ∀ {s v r}, Reads s v r → Reads' (u ++ s) (f v) r)
    (hframe : ∀ {C}, IsFrame C → IsFrame' fun content => f (C content)) :
    Outcome word back IsFrame' Reads' (u ++ front) rest :=
  h.lift (u ++ front) f (fun _ hread => by rw [List.append_assoc]; exact hreads hread) hframe

end Lift

theorem skipSpace_append_slot (front content back : List Char) :
    skipSpace (front ++ slot content back) = skipSpace front ++ slot content back := by
  induction front with
  | nil => exact skipSpace_cons (by decide) _
  | cons c front ih =>
    by_cases hc : isSpace c = true
    · rw [List.cons_append, skipSpace, skipSpace, List.dropWhile_cons_of_pos hc,
        List.dropWhile_cons_of_pos hc]
      exact ih
    · rw [List.cons_append, skipSpace, skipSpace, List.dropWhile_cons_of_neg hc,
        List.dropWhile_cons_of_neg hc, List.cons_append]

/-- A mark behind space in front of a slot is part of what is in front. -/
theorem exists_of_skipSpace_append_slot {c : Char} {content : List Char} (hc : c ≠ '"')
    (h : skipSpace (front ++ slot content back) = c :: r) :
    ∃ front', r = front' ++ slot content back ∧
      ∀ other, skipSpace (front ++ slot other back) = c :: (front' ++ slot other back) := by
  rw [skipSpace_append_slot] at h
  cases hskip : skipSpace front with
  | nil =>
    rw [hskip] at h
    exact absurd (List.cons.inj h).1.symm hc
  | cons d front' =>
    rw [hskip] at h
    obtain ⟨rfl, rfl⟩ := List.cons.inj h
    exact ⟨front', rfl, fun other => by rw [skipSpace_append_slot, hskip]; rfl⟩

/-- The reader cannot go on in the slot. -/
theorem IsWord.skipSpace_ne (hword : IsWord word us) {c : Char} (hc : c ∈ [':', ',', ']', '\x7d'])
    (rest : List Char) : skipSpace (word ++ rest) ≠ c :: r := by
  obtain ⟨d, w, rfl⟩ := List.exists_cons_of_ne_nil hword.ne_nil
  obtain ⟨hspace, hmark⟩ := hword.starts d rfl
  intro h
  rw [List.cons_append, skipSpace_cons hspace] at h
  exact hmark ((List.cons.inj h).1 ▸ hc)

/-! ### Strings -/

theorem readString_ne_nil {opening : Nat} {v : Utf16} (h : readString opening s = .ok (v, r)) :
    s ≠ [] := by
  rintro rfl
  exact nomatch h

/-- What the slot adds to a string. -/
def IsStringFrame (C : Utf16 → Utf16) : Prop := ∃ x, C = fun content => x ++ content

theorem IsStringFrame.append {C : Utf16 → Utf16} (hC : IsStringFrame C) (us : Utf16) :
    IsStringFrame fun content => us ++ C content := by
  obtain ⟨x, rfl⟩ := hC
  exact ⟨us ++ x, funext fun content => (List.append_assoc us x content).symm⟩

/-- A string that began in front of the slot. If it takes the slot in, it ends behind it. -/
theorem outcome_readString (hword : IsWord word us) {opening : Nat} {v : Utf16}
    (h : readString opening (front ++ slot word back) = .ok (v, rest)) :
    Outcome word back (fun C => IsStringFrame C ∧ rest = back)
      (fun s v r => ∀ opening, readString opening s = .ok (v, r)) front rest := by
  generalize htext : front ++ slot word back = s at h
  fun_induction readString opening s generalizing front v with
  | case2 s =>
    -- The quote at which the string ends may be the one in front of the slot.
    cases h
    cases front with
    | nil => exact .stuck ('"' :: back) (List.cons.inj htext).2.symm
    | cons c front =>
      obtain ⟨rfl, rfl⟩ := List.cons.inj htext
      exact .ahead [] front rfl fun content us hwrites opening =>
        readString_quote opening _
  | case5 a b c d s hempty unit hunit _ ih =>
    -- No quote is in the escape, so the slot is behind it.
    have hquote : '"' ∉ ['\\', 'u', a, b, c, d] := by
      simpa using not_mem_of_hexUnit? (e := '"') rfl hunit
    obtain ⟨front, rfl⟩ := exists_eq_append_of_not_mem (y := ['\\', 'u', a, b, c, d]) htext hquote
    obtain ⟨w, hw, rfl⟩ := prependUnits_eq_ok_iff.mp h
    have htail : front ++ slot word back = s := by simpa using htext
    refine (ih htail hw).prepend _ ([unit] ++ ·) ?_ fun hC => ⟨hC.1.append _, hC.2⟩
    intro s v r hread opening
    exact readString_eq_ok_of_units
      (readString_hexEscape opening hunit (readString_ne_nil (hread opening))) (hread opening)
  | case8 e s hunicode unit hunit _ ih =>
    obtain ⟨w, hw, rfl⟩ := prependUnits_eq_ok_iff.mp h
    rcases front with _ | ⟨c, _ | ⟨d, front⟩⟩
    · exact absurd (List.cons.inj htext).1 (by decide)
    · -- The quote in front of the slot is escaped, and the string goes on in the slot.
      obtain ⟨rfl, htail⟩ := List.cons.inj htext
      obtain ⟨rfl, rfl⟩ := List.cons.inj htail
      rw [hword.writes] at hw
      cases hw
      refine .filled ([unit] ++ ·) ⟨⟨[unit], rfl⟩, rfl⟩ fun content us hwrites opening => ?_
      exact readString_eq_ok_of_units (readString_shortEscape opening hunit) (hwrites opening back)
    · obtain ⟨rfl, htail⟩ := List.cons.inj htext
      obtain ⟨rfl, rfl⟩ := List.cons.inj htail
      refine (ih rfl hw).prepend ['\\', d] ([unit] ++ ·) ?_ fun hC => ⟨hC.1.append _, hC.2⟩
      intro s v r hread opening
      exact readString_eq_ok_of_units (readString_shortEscape opening hunit) (hread opening)
  | case11 c s hquote hescape hcontrol ih =>
    obtain ⟨w, hw, rfl⟩ := prependUnits_eq_ok_iff.mp h
    cases front with
    | nil => exact absurd (List.cons.inj htext).1.symm hquote
    | cons d front =>
      obtain ⟨rfl, rfl⟩ := List.cons.inj htext
      refine (ih rfl hw).prepend [d] (Utf16.unitsOf d ++ ·) ?_ fun hC => ⟨hC.1.append _, hC.2⟩
      intro s v r hread opening
      exact readString_eq_ok_of_units
        (readString_plainChar opening hquote hescape (Nat.not_lt.mp hcontrol)) (hread opening)
  | _ => cases h

/-! ### Values that hold no others -/

theorem lockstep_slot (content other back : List Char) :
    Lockstep (fun s t => ∃ front, s = front ++ slot content back ∧ t = front ++ slot other back)
      (· = '"') where
  head?_eq := by
    rintro s t ⟨front, rfl, rfl⟩
    cases front <;> rfl
  tail := by
    rintro c s t hc ⟨front, hs, ht⟩
    cases front with
    | nil => exact absurd (List.cons.inj hs).1 hc
    | cons d front => exact ⟨front, (List.cons.inj hs).2, (List.cons.inj ht).2⟩
  between hc := .inr hc

theorem outcome_readPlain (hword : IsWord word us) {constants : Bool} {v : Json}
    (h : readPlain constants (front ++ slot word back) = .ok (v, rest)) :
    Outcome word back Frame (fun s v r => readPlain constants s = .ok (v, r)) front rest := by
  have hreads : ∀ {s : List Char} {v : Utf16} {r : List Char},
      (∀ opening, readString opening s = .ok (v, r)) →
        readPlain constants ('"' :: s) = .ok (.string v, r) :=
    fun hread => readPlain_string_eq_ok_iff.mpr ⟨_, rfl, hread _⟩
  cases front with
  | nil =>
    have hself := hreads fun opening => hword.writes opening back
    rw [show readPlain constants ([] ++ slot word back) = .ok (.string us, back) from hself] at h
    cases h
    exact .filled _ (.string []) fun content us hwrites => hreads fun opening => hwrites opening back
  | cons c front =>
    by_cases hc : c = '"'
    · subst hc
      obtain ⟨units, -, hstring⟩ := readPlain_string_eq_ok_iff.mp h
      refine (outcome_readString hword hstring).prepend ['"'] Json.string hreads ?_
      rintro C ⟨⟨x, rfl⟩, -⟩
      exact .string x
    · -- Another value ends in front of the slot, wherever it ends with the word in it.
      have hhead : ∀ content, (c :: front ++ slot content back).head? ≠ some '"' := fun _ heq =>
        hc (Option.some.inj heq)
      have hrest : ∀ content, ∃ front', rest = front' ++ slot word back ∧
          readPlain constants (c :: front ++ slot content back) =
            .ok (v, front' ++ slot content back) := by
        intro content
        obtain ⟨rest', hread, hleaves⟩ := (lockstep_slot word content back).exists_readPlain
          ⟨c :: front, rfl, rfl⟩ (hhead word) h
        obtain ⟨front', hfront, rfl⟩ := hleaves.related
        exact ⟨front', hfront, hread⟩
      obtain ⟨front', hfront, -⟩ := hrest word
      refine .ahead v front' hfront fun content us hwrites => ?_
      obtain ⟨front'', hfront', hread⟩ := hrest content
      rw [hfront] at hfront'
      rwa [List.append_cancel_right hfront']

/-! ### Values that hold others -/

section
variable {β : Type} {part : List Char → Reading β} {mark : Char}
  {parts : Nat → List Char → Reading (List β)} {fuel fuel' : Nat} {v : β} {vs : List β}

theorem Keeps.length_le (hread : Keeps part) (h : part s = .ok (v, rest)) :
    rest.length ≤ s.length := by
  obtain ⟨rest', h', hleaves⟩ := hread (.refl s) h
  rw [h] at h'
  cases h'
  exact hleaves.length_le

/-- Parts are read with any fuel that is enough for the text. -/
def ReadsAll (parts : Nat → List Char → Reading (List β)) (s : List Char) (vs : List β)
    (rest : List Char) : Prop :=
  ∀ fuel, s.length < fuel → parts fuel s = .ok (vs, rest)

namespace Enumerates

theorem mono (hparts : Enumerates part mark parts) {first : List β × List Char}
    (h : parts fuel s = .ok first) (hle : fuel ≤ fuel') : parts fuel' s = .ok first := by
  obtain ⟨vs, rest⟩ := first
  induction fuel' generalizing fuel s vs with
  | zero =>
    obtain rfl := Nat.le_zero.mp hle
    exact h
  | succ fuel' ih =>
    obtain ⟨fuel, v, r, rfl, hv, ⟨hclose, rfl⟩ | ⟨s', vs', hcomma, hrest, rfl⟩⟩ := hparts.inversion h
    · exact hparts.last hv hclose
    · exact hparts.next hv hcomma (ih (Nat.le_of_succ_le_succ hle) _ hrest)

theorem readsAll (hparts : Enumerates part mark parts) (hpart : Keeps part)
    (h : parts fuel s = .ok (vs, rest)) : ReadsAll parts s vs rest := by
  intro fuel' hfuel
  -- With the fuel that was given and with less that is enough, the greater of the two decides.
  obtain ⟨rest', hread, -⟩ := hparts.exists_of_spread hpart (.refl s) h hfuel
  have hmono := hparts.mono h (Nat.le_max_left fuel fuel')
  rw [hparts.mono hread (Nat.le_max_right fuel fuel')] at hmono
  cases hmono
  exact hread

theorem readsAll_last (hparts : Enumerates part mark parts) (hv : part s = .ok (v, r))
    (hclose : skipSpace r = mark :: rest) : ReadsAll parts s [v] rest := by
  intro fuel hfuel
  cases fuel with
  | zero => exact absurd hfuel (Nat.not_lt_zero _)
  | succ fuel => exact hparts.last hv hclose

theorem readsAll_next (hparts : Enumerates part mark parts) (hpart : Keeps part)
    (hv : part s = .ok (v, r)) {s' : List Char} (hcomma : skipSpace r = ',' :: s')
    (hvs : ReadsAll parts (skipSpace s') vs rest) : ReadsAll parts s (v :: vs) rest := by
  intro fuel hfuel
  have hlength := hpart.length_le hv
  cases fuel with
  | zero => exact absurd hfuel (Nat.not_lt_zero _)
  | succ fuel =>
    have hskip : (',' :: s').length ≤ r.length := hcomma ▸ (List.dropWhile_sublist isSpace).length_le
    have hskip' : (skipSpace s').length ≤ s'.length := (List.dropWhile_sublist isSpace).length_le
    rw [List.length_cons] at hskip
    exact hparts.next hv hcomma (hvs fuel (by omega))

end Enumerates

/-- Parts with a frame among them. -/
def IsListFrame (IsPart : (Utf16 → β) → Prop) (D : Utf16 → List β) : Prop :=
  ∃ vs C ws, IsPart C ∧ D = fun content => vs ++ C content :: ws

theorem IsListFrame.cons {IsPart : (Utf16 → β) → Prop} {D : Utf16 → List β}
    (hD : IsListFrame IsPart D) (v : β) : IsListFrame IsPart fun content => v :: D content := by
  obtain ⟨vs, C, ws, hC, rfl⟩ := hD
  exact ⟨v :: vs, C, ws, hC, rfl⟩

/-- A reader tells where it stops in texts with a slot. -/
def Stops (word back : List Char) (IsFrame : (Utf16 → β) → Prop)
    (read : List Char → Reading β) : Prop :=
  ∀ ⦃front rest : List Char⦄ ⦃v : β⦄, read (front ++ slot word back) = .ok (v, rest) →
    Outcome word back IsFrame (fun s v r => read s = .ok (v, r)) front rest

/-- The slot is in one of the parts, or it is behind them all. -/
theorem Enumerates.outcome (hparts : Enumerates part mark parts)
    (hmark : mark ∈ [':', ',', ']', '\x7d']) (hword : IsWord word us) (hkeeps : Keeps part)
    {IsPart : (Utf16 → β) → Prop} (hpart : Stops word back IsPart part)
    (h : parts fuel (front ++ slot word back) = .ok (vs, rest)) :
    Outcome word back (IsListFrame IsPart) (ReadsAll parts) front rest := by
  have hquote : mark ≠ '"' := by
    rintro rfl
    exact absurd hmark (by decide)
  induction fuel generalizing front vs with
  | zero =>
    obtain ⟨fuel', -, -, hfuel, -⟩ := hparts.inversion h
    exact absurd hfuel.symm (Nat.succ_ne_zero fuel')
  | succ fuel ih =>
    obtain ⟨_, v, r, heq, hv, hnext⟩ := hparts.inversion h
    obtain rfl := Nat.succ.inj heq
    cases hpart hv with
    | ahead v' front' hr hread =>
      subst hr
      rcases hnext with ⟨hclose, -⟩ | ⟨s', vs', hcomma, hrest, -⟩
      · obtain ⟨front'', hfront, hclose'⟩ := exists_of_skipSpace_append_slot hquote hclose
        exact .ahead [v'] front'' hfront fun content us hwrites =>
          hparts.readsAll_last (hread content us hwrites) (hclose' content)
      · -- The slot is behind the comma, where the other parts are.
        obtain ⟨front'', rfl, hcomma'⟩ := exists_of_skipSpace_append_slot (by decide) hcomma
        rw [skipSpace_append_slot] at hrest
        refine (ih hrest).lift front (v' :: ·) ?_ (·.cons v')
        intro content us vs r hwrites hvs
        rw [← skipSpace_append_slot] at hvs
        exact hparts.readsAll_next hkeeps (hread content us hwrites) (hcomma' content) hvs
    | filled C hC hread =>
      rcases hnext with ⟨hclose, -⟩ | ⟨s', vs', hcomma, hrest, -⟩
      · exact .filled (fun content => [C content]) ⟨[], C, [], hC, rfl⟩ fun content us hwrites =>
          hparts.readsAll_last (hread content us hwrites) hclose
      · exact .filled (fun content => C content :: vs') ⟨[], C, vs', hC, rfl⟩ fun content us hwrites =>
          hparts.readsAll_next hkeeps (hread content us hwrites) hcomma
            (hparts.readsAll hkeeps hrest)
    | stuck rest' hr =>
      -- A part ended at the quote in front of the word, and the word is neither a mark nor a comma.
      subst hr
      rcases hnext with ⟨hclose, -⟩ | ⟨s', vs', hcomma, -⟩
      · exact absurd hclose (hword.skipSpace_ne hmark rest')
      · exact absurd hcomma (hword.skipSpace_ne (by decide) rest')

end

section
variable {item : List Char → Reading Json}

/-- A member with a string in its value or at the end of its name. -/
def IsMemberFrame (D : Utf16 → Utf16 × Json) : Prop :=
  (∃ name C, Frame C ∧ D = fun content => (name, C content)) ∨
    ∃ us v, D = fun content => (us ++ content, v)

/-- An object of such members has a string in it. -/
theorem frame_ofMemberList {D : Utf16 → List (Utf16 × Json)} (hD : IsListFrame IsMemberFrame D) :
    Frame fun content => ofMemberList (D content) := by
  obtain ⟨ms, E, ns, ⟨name, C, hC, rfl⟩ | ⟨us, v, rfl⟩, rfl⟩ := hD
  · exact .member ms name hC ns
  · exact .name ms us v ns

theorem readMember_eq_ok {s r' : List Char} {us : Utf16} {v : Json}
    (hname : ∀ opening, readString opening s = .ok (us, r)) (hcolon : skipSpace r = ':' :: r')
    (hv : item (skipSpace r') = .ok (v, rest)) :
    readMember item ('"' :: s) = .ok ((us, v), rest) := by
  simp only [readMember, hname, hcolon, hv]

theorem stops_readMember (hword : IsWord word us) (hitem : Stops word back Frame item) :
    Stops word back IsMemberFrame (readMember item) := by
  intro front rest m h
  obtain ⟨s', name, r, r', v, htext, hname, hcolon, hv, -⟩ := exists_of_readMember h
  cases front with
  | nil =>
    -- The word is the whole name of the member.
    obtain rfl := (List.cons.inj htext).2
    rw [hword.writes] at hname
    cases hname
    exact .filled (fun content => (content, v)) (.inr ⟨[], v, rfl⟩) fun content us hwrites =>
      readMember_eq_ok (hwrites · back) hcolon hv
  | cons c front =>
    obtain ⟨rfl, rfl⟩ := List.cons.inj htext
    cases outcome_readString hword hname with
    | ahead name' front' hr hread =>
      -- The name ends in front of the word, which is then at or in the value.
      subst hr
      obtain ⟨front'', rfl, hcolon'⟩ := exists_of_skipSpace_append_slot (by decide) hcolon
      rw [skipSpace_append_slot] at hv
      refine (hitem hv).lift _ (name', ·) ?_ fun hC => .inl ⟨name', _, hC, rfl⟩
      intro content us v r hwrites hv
      rw [← skipSpace_append_slot] at hv
      exact readMember_eq_ok (hread content us hwrites) (hcolon' content) hv
    | filled C hC hread =>
      obtain ⟨⟨x, rfl⟩, rfl⟩ := hC
      exact .filled (fun content => (x ++ content, v)) (.inr ⟨x, v, rfl⟩) fun content us hwrites =>
        readMember_eq_ok (hread content us hwrites) hcolon hv
    | stuck rest' hr =>
      subst hr
      exact absurd hcolon (hword.skipSpace_ne (by decide) rest')

end

/-! ### All values -/

section
variable {constants : Bool} {depth : Nat} {v : Json}

/-- What stands behind the space in front of a slot is the same mark with every content. -/
theorem skipSpace_append_slot_ne {c : Char} (hc : c ≠ '"') {content : List Char}
    (h : ∀ r, skipSpace (front ++ slot content back) ≠ c :: r) (other r : List Char) :
    skipSpace (front ++ slot other back) ≠ c :: r := by
  intro hother
  obtain ⟨front', -, hall⟩ := exists_of_skipSpace_append_slot hc hother
  exact h _ (hall content)

theorem outcome_array (hword : IsWord word us) (hitem : Stops word back Frame (readValue constants depth))
    (h : readValue constants (depth + 1) ('[' :: (front ++ slot word back)) = .ok (v, rest)) :
    Outcome word back Frame (fun s v r => readValue constants (depth + 1) s = .ok (v, r))
      ('[' :: front) rest := by
  rcases readValue_array_eq_ok_iff.mp h with ⟨hclose, -⟩ | ⟨hfilled, items, hitems, -⟩
  · obtain ⟨front', hrest, hclose'⟩ := exists_of_skipSpace_append_slot (by decide) hclose
    exact .ahead (.array []) front' hrest fun content us hwrites =>
      readValue_array_eq_ok_iff.mpr (.inl ⟨hclose' content, rfl⟩)
  · rw [skipSpace_append_slot] at hitems
    refine ((enumerates_readItems _).outcome (by decide) hword (keeps_readValue constants depth) hitem
      hitems).lift _ Json.array ?_ ?_
    · intro content us items r hwrites hread
      rw [← skipSpace_append_slot] at hread
      exact readValue_array_eq_ok_iff.mpr (.inr
        ⟨skipSpace_append_slot_ne (by decide) hfilled content, items, hread _ (Nat.lt_succ_self _), rfl⟩)
    · rintro D ⟨vs, C, ws, hC, rfl⟩
      exact .array vs hC ws

theorem outcome_object (hword : IsWord word us)
    (hitem : Stops word back Frame (readValue constants depth))
    (h : readValue constants (depth + 1) ('\x7b' :: (front ++ slot word back)) = .ok (v, rest)) :
    Outcome word back Frame (fun s v r => readValue constants (depth + 1) s = .ok (v, r))
      ('\x7b' :: front) rest := by
  rcases readValue_object_eq_ok_iff.mp h with ⟨hclose, -⟩ | ⟨hfilled, members, hmembers, -⟩
  · obtain ⟨front', hrest, hclose'⟩ := exists_of_skipSpace_append_slot (by decide) hclose
    exact .ahead (.object []) front' hrest fun content us hwrites =>
      readValue_object_eq_ok_iff.mpr (.inl ⟨hclose' content, rfl⟩)
  · rw [skipSpace_append_slot] at hmembers
    refine ((enumerates_readMembers _).outcome (by decide) hword
      (keeps_readMember (keeps_readValue constants depth)) (stops_readMember hword hitem) hmembers).lift _
      ofMemberList ?_ ?_
    · intro content us members r hwrites hread
      rw [← skipSpace_append_slot] at hread
      exact readValue_object_eq_ok_iff.mpr (.inr ⟨skipSpace_append_slot_ne (by decide) hfilled content,
        members, hread _ (Nat.lt_succ_self _), rfl⟩)
    · exact frame_ofMemberList

theorem stops_readValue (hword : IsWord word us)
    (constants : Bool) (depth : Nat) : Stops word back Frame (readValue constants depth) := by
  -- A value that holds no others is read alike on every level.
  have hplain : ∀ {depth : Nat} {front rest : List Char} {v : Json},
      (∀ content, (front ++ slot content back).head? ≠ some '[') →
      (∀ content, (front ++ slot content back).head? ≠ some '\x7b') →
      readValue constants depth (front ++ slot word back) = .ok (v, rest) →
      Outcome word back Frame (fun s v r => readValue constants depth s = .ok (v, r)) front rest := by
    intro depth front rest v harray hobject h
    rw [readValue_of_head? constants depth (harray word) (hobject word)] at h
    refine (outcome_readPlain hword h).lift front id ?_ id
    intro content us v r hwrites hread
    rwa [readValue_of_head? constants depth (harray content) (hobject content)]
  induction depth with
  | zero =>
    intro front rest v h
    cases front with
    | nil => exact hplain (fun _ => by simp [slot]) (fun _ => by simp [slot]) h
    | cons c front =>
      by_cases harray : c = '['
      · subst harray
        exact nomatch h
      by_cases hobject : c = '\x7b'
      · subst hobject
        exact nomatch h
      · exact hplain (fun _ => by simpa using harray) (fun _ => by simpa using hobject) h
  | succ depth ih =>
    intro front rest v h
    cases front with
    | nil => exact hplain (fun _ => by simp [slot]) (fun _ => by simp [slot]) h
    | cons c front =>
      by_cases harray : c = '['
      · subst harray
        exact outcome_array hword ih h
      by_cases hobject : c = '\x7b'
      · subst hobject
        exact outcome_object hword ih h
      · exact hplain (fun _ => by simpa using harray) (fun _ => by simpa using hobject) h

/-- A text with a slot that is decoded with a word in the slot is decoded to a frame around the
string in the slot. -/
theorem exists_frame_of_decode (hword : IsWord word us)
    (h : decode constants (front ++ slot word back) = .ok v) :
    ∃ C, Frame C ∧ ∀ content us, Writes content us →
      decode constants (front ++ slot content back) = .ok (C us) := by
  obtain ⟨hmark, rest, hread, hrest⟩ := decode_eq_ok_iff.mp h
  rw [skipSpace_append_slot] at hread
  cases stops_readValue hword constants depthLimit hread with
  | ahead v' front' hfront hread' =>
    -- Then more than space would follow the value.
    rw [hfront, skipSpace_append_slot] at hrest
    exact absurd hrest (by simp [slot])
  | filled C hC hread' =>
    refine ⟨C, hC, fun content us hwrites => decode_eq_ok_iff.mpr ⟨?_, rest, ?_, hrest⟩⟩
    · cases front with
      | nil => simp [slot]
      | cons c front => exact hmark
    · rw [skipSpace_append_slot]
      exact hread' content us hwrites
  | stuck rest' hstuck =>
    obtain ⟨c, w, rfl⟩ := List.exists_cons_of_ne_nil hword.ne_nil
    rw [hstuck, List.cons_append, skipSpace_cons (hword.starts c rfl).1] at hrest
    exact nomatch hrest

end

end Chartdown.Json
