import Chartdown.Proofs.Json.Numerals

/-!
# What is written is read back

A value that is written is read back as it is, and so it is when characters that markup takes for
its own are written by their escapes. Such characters stand in strings only, where an escape means
the same, so the reader goes through both texts alike.

Three things have to hold of the value: its numbers can be written and read, the names in an object
differ, and it nests no deeper than the reader goes.

## Key results

- `readString_units`: a string is read back unit by unit
- `readValue_text`: a value is read back, whatever follows that does not go on with it
- `decode_text`: the text of a value is decoded as the value
-/

namespace Chartdown.Json

open Text (Utf16)

/-! ### Escapes -/

theorem hexDigit?_hexChar {n : Nat} (h : n < 16) : hexDigit? (hexChar n) = some n := by
  have hall : ∀ n < 16, hexDigit? (hexChar n) = some n := by decide
  exact hall n h

/-- Four hexadecimal digits write any code unit. -/
theorem hexUnit?_unicodeEscape (u : UInt16) :
    hexUnit? (hexChar (u.toNat / 4096)) (hexChar (u.toNat / 256 % 16))
      (hexChar (u.toNat / 16 % 16)) (hexChar (u.toNat % 16)) = some u := by
  have hu : u.toNat < 65536 := u.toNat_lt
  have hsum : ((u.toNat / 4096 * 16 + u.toNat / 256 % 16) * 16 + u.toNat / 16 % 16) * 16 +
      u.toNat % 16 = u.toNat := by omega
  rw [hexUnit?, hexDigit?_hexChar (by omega), hexDigit?_hexChar (by omega),
    hexDigit?_hexChar (by omega), hexDigit?_hexChar (by omega)]
  simp only [Option.bind_eq_bind, Option.bind_some, Option.pure_def, hsum, Nat.toUInt16_eq,
    UInt16.ofNat_toNat]

theorem readString_unicodeEscape (opening : Nat) (u : UInt16) {s : List Char} (hs : s ≠ []) :
    readString opening (unicodeEscape u ++ s) = prependUnits [u] (readString opening s) :=
  readString_hexEscape opening (hexUnit?_unicodeEscape u) hs

/-- The forms in which a code unit is written. -/
inductive UnitForm (u : UInt16) : List Char → Prop
  | short {e : Char} (he : shortEscape? e = some u) (hplain : e ∉ ['<', '>', '&'])
      (hprints : 0x20 ≤ e.toNat ∧ e.toNat < 0x7f) : UnitForm u ['\\', e]
  | plain {c : Char} (hquote : c ≠ '"') (hescape : c ≠ '\\') (hunit : c.toNat.toUInt16 = u)
      (hprints : 0x20 ≤ c.toNat ∧ c.toNat < 0x7f) : UnitForm u [c]
  | unicode : UnitForm u (unicodeEscape u)

theorem unitForm (u : UInt16) : UnitForm u (unitText u) := by
  simp only [unitText]
  -- The seven short escapes come first, each for its own unit.
  iterate 7
    split
    case isTrue h => exact .short (by rw [h]; rfl) (by decide) (by decide)
  split
  case isTrue hquote hescape _ _ _ _ _ hprints =>
    have hrange : 0x20 ≤ u.toNat ∧ u.toNat < 0x7f := hprints
    have hnat : (Char.ofNat u.toNat).toNat = u.toNat := by
      have hall : ∀ n < 0x7f, (Char.ofNat n).toNat = n := by decide
      exact hall _ hrange.2
    have hunit : (Char.ofNat u.toNat).toNat.toUInt16 = u := by
      rw [hnat, Nat.toUInt16_eq, UInt16.ofNat_toNat]
    refine .plain (fun h => hquote ?_) (fun h => hescape ?_) hunit (by rwa [hnat])
    · rw [← hunit, h]
      rfl
    · rw [← hunit, h]
      rfl
  case isFalse => exact .unicode

theorem unitsOf_of_lt {c : Char} (h : c.toNat < 0x7f) : Utf16.unitsOf c = [c.toNat.toUInt16] := by
  rw [Utf16.unitsOf, if_pos (by omega)]

/-- The characters of an escape are none that markup takes for its own. -/
theorem prints_of_mem_unicodeEscape {u : UInt16} {c : Char} (h : c ∈ unicodeEscape u) :
    0x20 ≤ c.toNat ∧ c.toNat < 0x7f ∧ c ∉ ['<', '>', '&'] := by
  have hu : u.toNat < 65536 := u.toNat_lt
  have hhex : ∀ n < 16, 0x20 ≤ (hexChar n).toNat ∧ (hexChar n).toNat < 0x7f ∧
      hexChar n ∉ ['<', '>', '&'] := by decide
  simp only [unicodeEscape, List.mem_cons, List.not_mem_nil, or_false] at h
  rcases h with rfl | rfl | rfl | rfl | rfl | rfl
  · decide
  · decide
  all_goals exact hhex _ (by omega)

/-- A way of writing characters in which those that markup takes for its own may be escaped. -/
structure Escaping (write : Char → List Char) : Prop where
  plain : ∀ c, c ∉ ['<', '>', '&'] → write c = [c]
  marked : ∀ c ∈ ['<', '>', '&'], write c = [c] ∨ write c = unicodeEscape c.toNat.toUInt16

theorem Escaping.singleton : Escaping fun c => [c] where
  plain _ _ := rfl
  marked _ _ := .inl rfl

section Written
variable {write : Char → List Char} (hwrite : Escaping write)
include hwrite

theorem Escaping.flatMap_eq {s : List Char} (hs : ∀ c ∈ s, c ∉ ['<', '>', '&']) :
    s.flatMap write = s := by
  induction s with
  | nil => rfl
  | cons c s ih =>
    rw [List.forall_mem_cons] at hs
    rw [List.flatMap_cons, hwrite.plain c hs.1, ih hs.2, List.singleton_append]

/-- A code unit is read back. -/
theorem readString_unit (opening : Nat) (u : UInt16) {s : List Char} (hs : s ≠ []) :
    readString opening ((unitText u).flatMap write ++ s) =
      prependUnits [u] (readString opening s) := by
  have hform := unitForm u
  generalize unitText u = form at hform ⊢
  -- Escapes hold no marked character and stay as they are; one that stands for itself is either
  -- left or turned into an escape for the same unit.
  cases hform with
  | @short e he hplain =>
    rw [hwrite.flatMap_eq fun c hc => ?_]
    · exact readString_shortEscape opening he
    · rcases List.mem_cons.mp hc with rfl | hc
      · decide
      · exact List.mem_singleton.mp hc ▸ hplain
  | @plain c hquote hescape hunit hprints =>
    have hself : readString opening (c :: s) = prependUnits [u] (readString opening s) := by
      rw [readString_plainChar opening hquote hescape hprints.1, unitsOf_of_lt hprints.2, hunit]
    rw [List.flatMap_singleton]
    by_cases hmarked : c ∈ ['<', '>', '&']
    · rcases hwrite.marked c hmarked with h | h
      · rw [h]
        exact hself
      · rw [h, hunit]
        exact readString_unicodeEscape opening u hs
    · rw [hwrite.plain c hmarked]
      exact hself
  | unicode =>
    rw [hwrite.flatMap_eq fun c hc => (prints_of_mem_unicodeEscape hc).2.2]
    exact readString_unicodeEscape opening u hs

/-- A string is read back. -/
theorem readString_units (opening : Nat) (units : Utf16) (rest : List Char) :
    readString opening ((units.flatMap unitText).flatMap write ++ '"' :: rest) =
      .ok (units, rest) := by
  induction units with
  | nil => exact readString_quote opening rest
  | cons u units ih =>
    rw [List.flatMap_cons, List.flatMap_append, List.append_assoc,
      readString_unit hwrite opening u (by simp), ih]
    rfl

end Written

/-! ### Values -/

mutual
/-- Whether a value can be written and read back: it nests at most some levels, its whole numbers
have no more digits than are read, its doubles are finite, and the names in an object differ. -/
def isPortable : Nat → Json → Bool
  | _, .null => true
  | _, .bool _ => true
  | _, .number (.integer n) => (digitsOf n.natAbs).length ≤ digitLimit
  | _, .number (.double d) => d.isFinite
  | _, .string _ => true
  | 0, .array _ => false
  | depth + 1, .array items => itemsPortable depth items
  | 0, .object _ => false
  | depth + 1, .object members =>
    (members.map (·.1)).Nodup && membersPortable depth members

/-- Whether all items can be written and read back. -/
def itemsPortable : Nat → List Json → Bool
  | _, [] => true
  | depth, v :: rest => isPortable depth v && itemsPortable depth rest

/-- Whether all members can be written and read back. -/
def membersPortable : Nat → List (Utf16 × Json) → Bool
  | _, [] => true
  | depth, (_, v) :: rest => isPortable depth v && membersPortable depth rest
end

/-- New names are put at the end. -/
theorem put_of_not_mem {name : Utf16} {members : List (Utf16 × Json)}
    (h : name ∉ members.map (·.1)) (v : Json) : put name v members = members ++ [(name, v)] := by
  induction members with
  | nil => rfl
  | cons m rest ih =>
    rw [List.map_cons, List.mem_cons, not_or] at h
    rw [put, if_neg (Ne.symm h.1), ih h.2, List.cons_append]

/-- Members of different names are an object as they are. -/
theorem ofMemberList_of_nodup {members : List (Utf16 × Json)} (h : (members.map (·.1)).Nodup) :
    ofMemberList members = .object members := by
  -- The members that were put so far differ in name from those to come.
  have hfold : ∀ {known : List (Utf16 × Json)}, ((known ++ members).map (·.1)).Nodup →
      members.foldl (fun known m => put m.1 m.2 known) known = known ++ members := by
    induction members with
    | nil => intro known _; simp
    | cons m rest ih =>
      intro known hnodup
      have hfresh : m.1 ∉ known.map (·.1) := by
        rw [List.map_append, List.nodup_append] at hnodup
        exact fun hmem => hnodup.2.2 m.1 hmem m.1 (by simp) rfl
      rw [List.foldl_cons, put_of_not_mem hfresh, ih (List.nodup_cons.mp h).2]
      · simp
      · simpa using hnodup
  rw [ofMemberList, hfold (by simpa using h), List.nil_append]

theorem readPlain_quote (constants : Bool) (s : List Char) :
    readPlain constants ('"' :: s) =
      (readString (s.length + 1) s).map fun r => (.string r.1, r.2) := by
  rw [readPlain]
  cases readString ('"' :: s).length s
  all_goals rfl

/-- The literal of a number that can be written. -/
theorem exists_numberText {depth : Nat} {n : Number} (h : isPortable depth (.number n) = true) :
    ∃ t : NumberText, t.text = numberText n ∧ t.value = n ∧ t.IsReadable := by
  cases n with
  | integer i =>
    have hdigits : (digitsOf i.natAbs).length ≤ digitLimit := by simpa [isPortable] using h
    exact exists_integerText i hdigits
  | double d =>
    cases d with
    | finite v => exact exists_doubleText v
    | infinite => simp [isPortable, Double.isFinite] at h
    | nan => simp [isPortable, Double.isFinite] at h

section Written
variable {write : Char → List Char} (hwrite : Escaping write) (constants : Bool)
include hwrite

theorem readValue_number {depth : Nat} {n : Number} (h : isPortable depth (.number n) = true)
    {rest : List Char} (hrest : NumberText.Ends rest) (d : Nat) :
    readValue constants d ((numberText n).flatMap write ++ rest) = .ok (.number n, rest) := by
  obtain ⟨t, htext, hvalue, hreadable⟩ := exists_numberText h
  have hplain : ∀ c ∈ t.text, c ∉ ['<', '>', '&'] := fun c hc => by
    have hchar := NumberText.isNumberChar_of_mem_text hc
    intro hmarked
    simp only [List.mem_cons, List.not_mem_nil, or_false] at hmarked
    rcases hmarked with rfl | rfl | rfl
    all_goals exact absurd hchar (by decide)
  have hread := readPlain_number constants t hrest hreadable
  obtain ⟨c, s, hcons, hc⟩ := t.exists_text_eq_cons
  rw [← htext, hwrite.flatMap_eq hplain, ← hvalue, ← hread, hcons, List.cons_append]
  refine readValue_of_plain constants d ?_ ?_
  all_goals
    rintro rfl
    rcases hc with hc | ⟨hc, -⟩
    all_goals exact absurd hc (by decide)

/-- The text of a value starts with a character that shows the value to come. -/
theorem exists_written_eq_cons {depth : Nat} {v : Json} (h : isPortable depth v = true) :
    ∃ c s, (text v).flatMap write = c :: s ∧ isSpace c = false ∧ c ≠ ']' ∧ c ≠ '\ufeff' := by
  have hcons : ∀ {c : Char} {s : List Char}, text v = c :: s →
      c ∉ ['<', '>', '&'] ∧ isSpace c = false ∧ c ≠ ']' ∧ c ≠ '\ufeff' →
      ∃ c s, (text v).flatMap write = c :: s ∧ isSpace c = false ∧ c ≠ ']' ∧ c ≠ '\ufeff' := by
    intro c s htext hc
    refine ⟨c, s.flatMap write, ?_, hc.2⟩
    rw [htext, List.flatMap_cons, hwrite.plain c hc.1, List.singleton_append]
  cases v with
  | null => exact hcons rfl (by decide)
  | bool b =>
    cases b
    all_goals exact hcons rfl (by decide)
  | number n =>
    obtain ⟨t, htext, -⟩ := exists_numberText h
    obtain ⟨c, s, ht, hc⟩ := t.exists_text_eq_cons
    refine hcons (by rw [text, ← htext, ht]) ?_
    -- A literal starts with a digit or a minus, and none of the characters in question is one.
    have hne : ∀ d : Char, d.isDigit = false → d ≠ '-' → c ≠ d := by
      rintro d hdigit hminus rfl
      rcases hc with hc | ⟨hc, -⟩
      · exact absurd (hdigit.symm.trans hc) (by decide)
      · exact hminus hc
    have hmarked : c ∉ ['<', '>', '&'] := by
      simp [hne '<' (by decide) (by decide), hne '>' (by decide) (by decide),
        hne '&' (by decide) (by decide)]
    have hspace : isSpace c = false := by
      simp [isSpace, hne ' ' (by decide) (by decide), hne '\t' (by decide) (by decide),
        hne '\n' (by decide) (by decide), hne '\r' (by decide) (by decide)]
    exact ⟨hmarked, hspace, hne ']' (by decide) (by decide), hne '\ufeff' (by decide) (by decide)⟩
  | string s => exact hcons rfl (by decide)
  | array items => exact hcons rfl (by decide)
  | object members => exact hcons rfl (by decide)

/-- Every item takes a character. -/
theorem length_le_itemsText {depth : Nat} {items : List Json}
    (h : itemsPortable depth items = true) :
    items.length ≤ ((itemsText items).flatMap write).length := by
  induction items with
  | nil => exact Nat.zero_le _
  | cons v rest ih =>
    rw [itemsPortable, Bool.and_eq_true] at h
    obtain ⟨c, s, hcons, -⟩ := exists_written_eq_cons hwrite h.1
    have hrest := ih h.2
    rw [itemsText, List.flatMap_append, hcons]
    split
    case isTrue hempty =>
      rw [List.isEmpty_iff.mp hempty]
      simp
    case isFalse =>
      simp only [List.flatMap_cons, List.length_append, List.length_cons]
      omega

theorem length_le_membersText (members : List (Utf16 × Json)) :
    members.length ≤ ((membersText members).flatMap write).length := by
  induction members with
  | nil => exact Nat.zero_le _
  | cons m rest ih =>
    obtain ⟨name, v⟩ := m
    simp only [membersText, stringText, List.cons_append, List.flatMap_cons,
      hwrite.plain '"' (by decide), List.length_cons]
    split
    case isTrue hempty =>
      rw [List.isEmpty_iff.mp hempty]
      simp
    case isFalse =>
      simp only [List.flatMap_append, List.flatMap_cons, List.length_append]
      omega

omit hwrite in
/-- A mark of the grammar ends a number. -/
theorem ends_mark {c : Char} (hc : c ∈ [',', ']', '\x7d']) (s : List Char) :
    NumberText.Ends (c :: s) := by
  intro d hd
  obtain rfl : c = d := by simpa using hd
  exact (by decide : ∀ c ∈ [',', ']', '\x7d'],
    (c.isDigit || c == '.' || c == 'e' || c == 'E') = false) c hc

omit hwrite in
theorem ends_nil : NumberText.Ends [] := fun _ h => nomatch h

/-- The space in front of a value is skipped. -/
theorem skipSpace_written {depth : Nat} {v : Json} (h : isPortable depth v = true) (s : List Char) :
    skipSpace (' ' :: ((text v).flatMap write ++ s)) = (text v).flatMap write ++ s := by
  obtain ⟨c, t, hcons, hc, -⟩ := exists_written_eq_cons hwrite h
  rw [hcons, List.cons_append, ← List.singleton_append, skipSpace_append (by decide),
    skipSpace_cons hc]

/-- A member is read back if its value is. -/
theorem readMember_text {item : List Char → Reading Json} {depth : Nat} {name : Utf16} {v : Json}
    (h : isPortable depth v = true) {rest : List Char}
    (hitem : item ((text v).flatMap write ++ rest) = .ok (v, rest)) :
    readMember item ((stringText name ++ ':' :: ' ' :: text v).flatMap write ++ rest) =
      .ok ((name, v), rest) := by
  have hwritten : (stringText name ++ ':' :: ' ' :: text v).flatMap write ++ rest =
      '"' :: ((name.flatMap unitText).flatMap write ++
        '"' :: ':' :: ' ' :: ((text v).flatMap write ++ rest)) := by
    simp [stringText, hwrite.plain '"' (by decide), hwrite.plain ':' (by decide),
      hwrite.plain ' ' (by decide)]
  rw [hwritten, readMember]
  simp only [readString_units hwrite, skipSpace_cons (show isSpace ':' = false by decide),
    skipSpace_written hwrite h, hitem]

/-- An array is read back if its items are. -/
theorem readValue_array_text {depth : Nat} {items : List Json} (hne : items ≠ [])
    (h : itemsPortable depth items = true)
    (hitems : ∀ fuel rest, items.length ≤ fuel →
      readItems (readValue constants depth) fuel ((itemsText items).flatMap write ++ ']' :: rest) =
        .ok (items, rest)) (rest : List Char) :
    readValue constants (depth + 1) ((text (.array items)).flatMap write ++ rest) =
      .ok (.array items, rest) := by
  obtain ⟨v, vs, rfl⟩ := List.exists_cons_of_ne_nil hne
  have hv : isPortable depth v = true := by
    rw [itemsPortable, Bool.and_eq_true] at h
    exact h.1
  have hlength := length_le_itemsText hwrite h
  -- Behind the bracket stands the first item, and the reader has fuel for all of them.
  obtain ⟨c, s, hcons, hspace, hclose, -⟩ := exists_written_eq_cons hwrite hv
  obtain ⟨t, ht⟩ : ∃ t, (itemsText (v :: vs)).flatMap write ++ ']' :: rest = c :: t := by
    rw [itemsText, List.flatMap_append, hcons]
    exact ⟨_, rfl⟩
  have hfuel : (v :: vs).length ≤ t.length + 2 := by
    have := congrArg List.length ht
    simp only [List.length_append, List.length_cons] at this hlength ⊢
    omega
  have hread := hitems (t.length + 2) rest hfuel
  rw [ht] at hread
  have hwritten : (text (.array (v :: vs))).flatMap write ++ rest = '[' :: c :: t := by
    simp [text, ← ht, hwrite.plain '[' (by decide), hwrite.plain ']' (by decide)]
  rw [hwritten]
  exact readValue_array (skipSpace_cons hspace t) hclose hread

/-- An object is read back if its members are and no name stands twice. -/
theorem readValue_object_text {depth : Nat} {members : List (Utf16 × Json)} (hne : members ≠ [])
    (hnames : (members.map Prod.fst).Nodup)
    (hmembers : ∀ fuel rest, members.length ≤ fuel →
      readMembers (readValue constants depth) fuel
        ((membersText members).flatMap write ++ '\x7d' :: rest) = .ok (members, rest))
    (rest : List Char) :
    readValue constants (depth + 1) ((text (.object members)).flatMap write ++ rest) =
      .ok (.object members, rest) := by
  obtain ⟨m, ms, rfl⟩ := List.exists_cons_of_ne_nil hne
  have hlength := length_le_membersText hwrite (m :: ms)
  obtain ⟨t, ht⟩ : ∃ t, (membersText (m :: ms)).flatMap write ++ '\x7d' :: rest = '"' :: t := by
    obtain ⟨name, v⟩ := m
    simp only [membersText, stringText, List.cons_append, List.flatMap_cons,
      hwrite.plain '"' (by decide)]
    exact ⟨_, rfl⟩
  -- Each member takes at least a character, so the fuel is enough for all of them.
  have hfuel : (m :: ms).length ≤ t.length + 2 := by
    have := congrArg List.length ht
    simp only [List.length_append, List.length_cons] at this hlength ⊢
    omega
  have hread := hmembers (t.length + 2) rest hfuel
  rw [ht] at hread
  have hwritten : (text (.object (m :: ms))).flatMap write ++ rest = '\x7b' :: '"' :: t := by
    simp [text, ← ht, hwrite.plain '\x7b' (by decide), hwrite.plain '\x7d' (by decide)]
  rw [hwritten, readValue_object (skipSpace_cons (by decide) t) (by decide) hread,
    ofMemberList_of_nodup hnames]

mutual
/-- A value is read back, whatever follows that does not go on with it. -/
theorem readValue_text : ∀ (depth : Nat) (v : Json), isPortable depth v = true →
    ∀ rest, NumberText.Ends rest →
      readValue constants depth ((text v).flatMap write ++ rest) = .ok (v, rest)
  | depth, .null, _, rest, _ => by
    rw [text, hwrite.flatMap_eq (by decide)]
    exact readValue_of_plain constants depth (by decide) (by decide)
  | depth, .bool true, _, rest, _ => by
    rw [text, hwrite.flatMap_eq (by decide)]
    exact readValue_of_plain constants depth (by decide) (by decide)
  | depth, .bool false, _, rest, _ => by
    rw [text, hwrite.flatMap_eq (by decide)]
    exact readValue_of_plain constants depth (by decide) (by decide)
  | depth, .number n, h, rest, hrest => by
    rw [text]
    exact readValue_number hwrite constants h hrest depth
  | depth, .string s, _, rest, _ => by
    rw [text, stringText, List.cons_append, List.flatMap_cons, hwrite.plain '"' (by decide),
      List.flatMap_append, hwrite.flatMap_eq (s := ['"']) (by decide), List.append_assoc,
      List.append_assoc, List.singleton_append,
      readValue_of_plain constants depth (by decide) (by decide), readPlain_quote]
    rw [List.singleton_append, readString_units hwrite]
    rfl
  | 0, .array _, h, _, _ => by simp [isPortable] at h
  | 0, .object _, h, _, _ => by simp [isPortable] at h
  | depth + 1, .array [], _, rest, _ => by
    rw [text, itemsText, hwrite.flatMap_eq (by decide)]
    rfl
  | depth + 1, .array (v :: vs), h, rest, _ => by
    rw [isPortable] at h
    exact readValue_array_text hwrite constants (List.cons_ne_nil v vs) h
      (readItems_text depth (v :: vs) h (List.cons_ne_nil v vs)) rest
  | depth + 1, .object [], _, rest, _ => by
    rw [text, membersText, hwrite.flatMap_eq (by decide)]
    rfl
  | depth + 1, .object (m :: ms), h, rest, _ => by
    rw [isPortable, Bool.and_eq_true, decide_eq_true_eq] at h
    exact readValue_object_text hwrite constants (List.cons_ne_nil m ms) h.1
      (readMembers_text depth (m :: ms) h.2 (List.cons_ne_nil m ms)) rest

/-- The items of an array are read back. -/
theorem readItems_text : ∀ (depth : Nat) (items : List Json), itemsPortable depth items = true →
    items ≠ [] → ∀ fuel rest, items.length ≤ fuel →
      readItems (readValue constants depth) fuel ((itemsText items).flatMap write ++ ']' :: rest) =
        .ok (items, rest)
  | depth, [], _, hne, _, _, _ => by
    exact absurd rfl hne
  | depth, v :: vs, h, _, fuel, rest, hfuel => by
    obtain ⟨fuel, rfl⟩ := Nat.exists_eq_succ_of_ne_zero
      (Nat.ne_of_gt (Nat.lt_of_lt_of_le (Nat.succ_pos vs.length) hfuel))
    rw [itemsPortable, Bool.and_eq_true] at h
    rw [itemsText, List.flatMap_append, List.append_assoc]
    cases vs with
    | nil =>
      have hitem := readValue_text depth v h.1 (']' :: rest) (ends_mark (by simp) rest)
      exact readItems_last hitem (skipSpace_cons (by decide) rest)
    | cons w ws =>
      -- Items are set apart by a comma and a space, and the next item does not start with space.
      have hrest := readItems_text depth (w :: ws) h.2 (List.cons_ne_nil w ws) fuel rest
        (Nat.le_of_succ_le_succ hfuel)
      have hw : isPortable depth w = true := by
        have hrest := h.2
        rw [itemsPortable, Bool.and_eq_true] at hrest
        exact hrest.1
      have hskip : skipSpace (' ' :: ((itemsText (w :: ws)).flatMap write ++ ']' :: rest)) =
          (itemsText (w :: ws)).flatMap write ++ ']' :: rest := by
        rw [itemsText, List.flatMap_append, List.append_assoc, skipSpace_written hwrite hw]
      have hwritten : (',' :: ' ' :: itemsText (w :: ws)).flatMap write ++ ']' :: rest =
          ',' :: ' ' :: ((itemsText (w :: ws)).flatMap write ++ ']' :: rest) := by
        simp [hwrite.plain ',' (by decide), hwrite.plain ' ' (by decide)]
      rw [List.isEmpty_cons, if_neg Bool.false_ne_true, hwritten]
      exact readItems_next (readValue_text depth v h.1 _ (ends_mark (by simp) _))
        (skipSpace_cons (by decide) _) (by rw [hskip, hrest])

/-- The members of an object are read back. -/
theorem readMembers_text : ∀ (depth : Nat) (members : List (Utf16 × Json)),
    membersPortable depth members = true → members ≠ [] → ∀ fuel rest, members.length ≤ fuel →
      readMembers (readValue constants depth) fuel
        ((membersText members).flatMap write ++ '\x7d' :: rest) = .ok (members, rest)
  | depth, [], _, hne, _, _, _ => by
    exact absurd rfl hne
  | depth, (name, v) :: ms, h, _, fuel, rest, hfuel => by
    obtain ⟨fuel, rfl⟩ := Nat.exists_eq_succ_of_ne_zero
      (Nat.ne_of_gt (Nat.lt_of_lt_of_le (Nat.succ_pos ms.length) hfuel))
    rw [membersPortable, Bool.and_eq_true] at h
    rw [membersText, List.flatMap_append, List.append_assoc]
    cases ms with
    | nil =>
      have hvalue := readValue_text depth v h.1 ('\x7d' :: rest) (ends_mark (by simp) rest)
      exact readMembers_last (readMember_text hwrite h.1 hvalue) (skipSpace_cons (by decide) rest)
    | cons m ms =>
      -- Members are set apart in the same way, and the next one starts with a quote.
      have hrest := readMembers_text depth (m :: ms) h.2 (List.cons_ne_nil m ms) fuel rest
        (Nat.le_of_succ_le_succ hfuel)
      have hskip : skipSpace (' ' :: ((membersText (m :: ms)).flatMap write ++ '\x7d' :: rest)) =
          (membersText (m :: ms)).flatMap write ++ '\x7d' :: rest := by
        obtain ⟨name, w⟩ := m
        simp only [membersText, stringText, List.cons_append, List.flatMap_cons,
          hwrite.plain '"' (by decide)]
        rfl
      have hwritten : (',' :: ' ' :: membersText (m :: ms)).flatMap write ++ '\x7d' :: rest =
          ',' :: ' ' :: ((membersText (m :: ms)).flatMap write ++ '\x7d' :: rest) := by
        simp [hwrite.plain ',' (by decide), hwrite.plain ' ' (by decide)]
      rw [List.isEmpty_cons, if_neg Bool.false_ne_true, hwritten]
      have hvalue := readValue_text depth v h.1
        (',' :: ' ' :: ((membersText (m :: ms)).flatMap write ++ '\x7d' :: rest))
        (ends_mark (by simp) _)
      exact readMembers_next (readMember_text hwrite h.1 hvalue) (skipSpace_cons (by decide) _)
        (by rw [hskip, hrest])
end

/-- The text of a value is decoded as the value. -/
theorem decode_text {v : Json} (h : isPortable depthLimit v = true) :
    decode constants ((text v).flatMap write) = .ok v := by
  have hread := readValue_text hwrite constants depthLimit v h [] ends_nil
  obtain ⟨c, s, hcons, hspace, -, hmark⟩ := exists_written_eq_cons hwrite h
  rw [List.append_nil, hcons] at hread
  rw [hcons, decode, readDocument, if_neg (by simpa using hmark), skipSpace_cons hspace, hread]
  rfl

end Written

/-- A text without any character written in another way is decoded as its value. -/
theorem decode_text_self {v : Json} (constants : Bool) (h : isPortable depthLimit v = true) :
    decode constants (text v) = .ok v := by
  have hdecode := decode_text Escaping.singleton constants h
  rwa [List.flatMap_singleton'] at hdecode

/-! ### Characters -/

/-- A printable character of ASCII. -/
def Prints (c : Char) : Prop := 0x20 ≤ c.toNat ∧ c.toNat < 0x7f

instance (c : Char) : Decidable (Prints c) := inferInstanceAs (Decidable (_ ∧ _))

theorem prints_of_isNumberChar {c : Char} (h : isNumberChar c = true) : Prints c := by
  simp only [isNumberChar, Bool.or_eq_true, beq_iff_eq] at h
  rcases h with ((((h | h) | h) | h) | h) | h
  · simp only [Char.isDigit, Bool.and_eq_true, decide_eq_true_eq] at h
    have hlow : '0'.toNat ≤ c.toNat := h.1
    have hhigh : c.toNat ≤ '9'.toNat := h.2
    exact ⟨Nat.le_trans (by decide) hlow, Nat.lt_of_le_of_lt hhigh (by decide)⟩
  all_goals
    rw [h]
    decide

theorem prints_of_mem_numberText {n : Number} {c : Char} (h : c ∈ numberText n) : Prints c := by
  have hliteral : ∀ t : NumberText, t.text = numberText n → Prints c := fun t ht =>
    prints_of_isNumberChar (NumberText.isNumberChar_of_mem_text (ht ▸ h))
  cases n with
  | integer i =>
    simp only [numberText, integerText] at h
    split at h
    · rcases List.mem_cons.mp h with rfl | h
      · decide
      · exact prints_of_isNumberChar (NumberText.isNumberChar_of_isDigit (isDigit_of_mem_digitsOf h))
    · exact prints_of_isNumberChar (NumberText.isNumberChar_of_isDigit (isDigit_of_mem_digitsOf h))
  | double d =>
    cases d with
    | finite v =>
      obtain ⟨t, ht, -⟩ := exists_doubleText v
      exact hliteral t ht
    | infinite negative =>
      cases negative
      · exact (by decide : ∀ c ∈ "Infinity".toList, Prints c) c h
      · exact (by decide : ∀ c ∈ "-Infinity".toList, Prints c) c h
    | nan => exact (by decide : ∀ c ∈ "NaN".toList, Prints c) c h

theorem prints_of_mem_stringText {s : Utf16} {c : Char} (h : c ∈ stringText s) : Prints c := by
  have hunits : ∀ c ∈ s.flatMap unitText, Prints c := by
    intro c hc
    obtain ⟨u, -, hu⟩ := List.mem_flatMap.mp hc
    have hform := unitForm u
    generalize unitText u = form at hform hu
    cases hform with
    | short _ _ hprints =>
      rcases List.mem_cons.mp hu with rfl | hu
      · decide
      · exact List.mem_singleton.mp hu ▸ hprints
    | plain _ _ _ hprints => exact List.mem_singleton.mp hu ▸ hprints
    | unicode => exact ⟨(prints_of_mem_unicodeEscape hu).1, (prints_of_mem_unicodeEscape hu).2.1⟩
  rw [stringText, List.cons_append, List.mem_cons, List.mem_append, List.mem_singleton] at h
  rcases h with rfl | h | rfl
  · decide
  · exact hunits c h
  · decide

mutual
/-- The text of a value holds printable characters of ASCII only. -/
theorem prints_text : ∀ (v : Json), ∀ c ∈ text v, Prints c
  | .null => by decide
  | .bool true => by decide
  | .bool false => by decide
  | .number n => fun c h => prints_of_mem_numberText h
  | .string s => fun c h => prints_of_mem_stringText h
  | .array items => by
    rw [text, List.cons_append, List.forall_mem_cons, List.forall_mem_append]
    exact ⟨by decide, prints_itemsText items, by decide⟩
  | .object members => by
    rw [text, List.cons_append, List.forall_mem_cons, List.forall_mem_append]
    exact ⟨by decide, prints_membersText members, by decide⟩

theorem prints_itemsText : ∀ (items : List Json), ∀ c ∈ itemsText items, Prints c
  | [] => by simp [itemsText]
  | v :: rest => by
    rw [itemsText, List.forall_mem_append]
    refine ⟨prints_text v, ?_⟩
    split
    · simp
    · rw [List.forall_mem_cons, List.forall_mem_cons]
      exact ⟨by decide, by decide, prints_itemsText rest⟩

theorem prints_membersText : ∀ (members : List (Utf16 × Json)), ∀ c ∈ membersText members, Prints c
  | [] => by simp [membersText]
  | (name, v) :: rest => by
    rw [membersText, List.forall_mem_append, List.forall_mem_append]
    refine ⟨⟨fun c h => prints_of_mem_stringText h, ?_⟩, ?_⟩
    · rw [List.forall_mem_cons, List.forall_mem_cons]
      exact ⟨by decide, by decide, prints_text v⟩
    split
    · simp
    · rw [List.forall_mem_cons, List.forall_mem_cons]
      exact ⟨by decide, by decide, prints_membersText rest⟩
end

/-! ### Obstacles -/

mutual
/-- Nothing keeps a value that can be read back from being written. -/
theorem obstacle?_of_isPortable : ∀ (depth : Nat) (v : Json), isPortable depth v = true →
    obstacle? false v = none
  | _, .null, _ => rfl
  | _, .bool _, _ => rfl
  | depth, .number n, h => by
    cases n with
    | integer i =>
      have hdigits : (digitsOf i.natAbs).length ≤ digitLimit := by simpa [isPortable] using h
      simp [obstacle?, numberObstacle?, Nat.not_lt.mpr hdigits]
    | double d =>
      have hfinite : d.isFinite = true := by simpa [isPortable] using h
      simp [obstacle?, numberObstacle?, hfinite]
  | _, .string _, _ => rfl
  | 0, .array _, h => by simp [isPortable] at h
  | 0, .object _, h => by simp [isPortable] at h
  | depth + 1, .array items, h => by
    rw [isPortable] at h
    rw [obstacle?, itemsObstacle?_of_itemsPortable depth items h]
  | depth + 1, .object members, h => by
    rw [isPortable, Bool.and_eq_true] at h
    rw [obstacle?, membersObstacle?_of_membersPortable depth members h.2]

theorem itemsObstacle?_of_itemsPortable : ∀ (depth : Nat) (items : List Json),
    itemsPortable depth items = true → itemsObstacle? false items = none
  | _, [], _ => rfl
  | depth, v :: rest, h => by
    rw [itemsPortable, Bool.and_eq_true] at h
    rw [itemsObstacle?, obstacle?_of_isPortable depth v h.1,
      itemsObstacle?_of_itemsPortable depth rest h.2]
    rfl

theorem membersObstacle?_of_membersPortable : ∀ (depth : Nat) (members : List (Utf16 × Json)),
    membersPortable depth members = true → membersObstacle? false members = none
  | _, [], _ => rfl
  | depth, (_, v) :: rest, h => by
    rw [membersPortable, Bool.and_eq_true] at h
    rw [membersObstacle?, obstacle?_of_isPortable depth v h.1,
      membersObstacle?_of_membersPortable depth rest h.2]
    rfl
end

end Chartdown.Json
