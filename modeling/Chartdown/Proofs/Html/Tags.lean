import Chartdown.Html.Escape
import Chartdown.Proofs.Text.Trim

/-!
# Tags

A reader of markup finds the tags of a text by the angle brackets alone (`tagsOf`). Markup is safe
(`SafeMarkup`) when the reader comes to an end, every tag it finds is one of those that documents
are written with, and opening and closing tags nest.

Markup is built from parts, so the proofs go through `Nested`, which is kept by putting parts next
to each other and by putting one between two tags.

## Key results

- `Nested.append`, `Nested.element`, `Nested.void`, `Nested.of_plain`: how nested markup is built
- `Nested.safeMarkup`: nested markup is safe
-/

namespace Chartdown.Html

/-! ### Reading tags -/

/-- Read the tags of a text, given what was read of an open one, last character first. There are
none where a tag is left open, where `<` stands inside a tag, or where `>` stands outside. -/
def readTags : Option (List Char) → List Char → Option (List (List Char))
  | none, [] => some []
  | some _, [] => none
  | none, c :: s =>
    if c = '<' then readTags (some []) s
    else if c = '>' then none
    else readTags none s
  | some inside, c :: s =>
    if c = '<' then none
    else if c = '>' then (readTags none s).map (inside.reverse :: ·)
    else readTags (some (c :: inside)) s

/-- What stands between the brackets of each tag of a text. -/
def tagsOf (s : String) : Option (List (List Char)) := readTags none s.toList

/-- A character that is no angle bracket. -/
def IsPlain (c : Char) : Prop := c ≠ '<' ∧ c ≠ '>'

theorem readTags_none_append {s : List Char} (hs : ∀ c ∈ s, IsPlain c) (t : List Char) :
    readTags none (s ++ t) = readTags none t := by
  induction s with
  | nil => rfl
  | cons c s ih =>
    rw [List.forall_mem_cons] at hs
    rw [List.cons_append, readTags, if_neg hs.1.1, if_neg hs.1.2, ih hs.2]

theorem readTags_some_append {s : List Char} (hs : ∀ c ∈ s, IsPlain c) (inside t : List Char) :
    readTags (some inside) (s ++ '>' :: t) =
      (readTags none t).map ((inside.reverse ++ s) :: ·) := by
  induction s generalizing inside with
  | nil => simp [readTags]
  | cons c s ih =>
    rw [List.forall_mem_cons] at hs
    rw [List.cons_append, readTags, if_neg hs.1.1, if_neg hs.1.2, ih hs.2]
    simp

/-- A character ends the reading, or the reader goes on behind it with what was completed. -/
theorem readTags_cons (st : Option (List Char)) (c : Char) :
    (∀ s, readTags st (c :: s) = none) ∨
      ∃ st' front, ∀ s, readTags st (c :: s) = (readTags st' s).map (front ++ ·) := by
  cases st with
  | none =>
    by_cases hlt : c = '<'
    · exact .inr ⟨some [], [], fun s => by simp [readTags, hlt]⟩
    by_cases hgt : c = '>'
    · exact .inl fun s => by simp [readTags, hgt]
    · exact .inr ⟨none, [], fun s => by simp [readTags, hlt, hgt]⟩
  | some inside =>
    by_cases hlt : c = '<'
    · exact .inl fun s => by simp [readTags, hlt]
    by_cases hgt : c = '>'
    · exact .inr ⟨none, [inside.reverse], fun s => by simp [readTags, hgt]⟩
    · exact .inr ⟨some (c :: inside), [], fun s => by simp [readTags, hlt, hgt]⟩

/-- What is read of a text is read of its front first. -/
theorem readTags_append {st : Option (List Char)} {s t : List Char} {tags : List (List Char)}
    (h : readTags st s = some tags) :
    readTags st (s ++ t) = (readTags none t).map (tags ++ ·) := by
  -- The state may be inside a tag, so the induction is for all of them.
  induction s generalizing st tags with
  | nil =>
    cases st with
    | none =>
      obtain rfl : tags = [] := by simpa [readTags, eq_comm] using h
      simp
    | some inside => exact nomatch h
  | cons c s ih =>
    rw [List.cons_append]
    rcases readTags_cons st c with hnone | ⟨st', front, hstep⟩
    · rw [hnone] at h
      exact nomatch h
    · rw [hstep] at h ⊢
      obtain ⟨rest, hrest, rfl⟩ := Option.map_eq_some_iff.mp h
      rw [ih hrest, Option.map_map]
      simp only [Function.comp_def, List.append_assoc]

theorem count_of_readTags {st : Option (List Char)} {s : List Char} {tags : List (List Char)}
    (h : readTags st s = some tags) :
    s.count '<' + st.toList.length = tags.length ∧ s.count '>' = tags.length := by
  -- A tag that is open was counted already, so its opening bracket is added on the left.
  induction s generalizing st tags with
  | nil =>
    cases st with
    | none =>
      obtain rfl : tags = [] := by simpa [readTags, eq_comm] using h
      simp
    | some inside => exact nomatch h
  | cons c s ih =>
    cases st with
    | none =>
      rw [readTags] at h
      split at h
      case isTrue hlt =>
        obtain ⟨hopen, hclose⟩ := ih h
        simpa [hlt] using ⟨hopen, hclose⟩
      split at h
      case isTrue => exact nomatch h
      rename_i hlt hgt
      obtain ⟨hopen, hclose⟩ := ih h
      simpa [List.count_cons_of_ne hlt, List.count_cons_of_ne hgt] using ⟨hopen, hclose⟩
    | some inside =>
      rw [readTags] at h
      split at h
      case isTrue => exact nomatch h
      split at h
      case isTrue hgt =>
        obtain ⟨rest, hrest, rfl⟩ := Option.map_eq_some_iff.mp h
        obtain ⟨hopen, hclose⟩ := ih hrest
        simpa [hgt] using ⟨hopen, hclose⟩
      rename_i hlt hgt
      obtain ⟨hopen, hclose⟩ := ih h
      simpa [List.count_cons_of_ne hlt, List.count_cons_of_ne hgt] using ⟨hopen, hclose⟩

/-- Every bracket of a text belongs to one of its tags. -/
theorem count_of_tagsOf {s : String} {tags : List (List Char)} (h : tagsOf s = some tags) :
    s.toList.count '<' = tags.length ∧ s.toList.count '>' = tags.length :=
  count_of_readTags h

/-- A plain character at the end makes no difference to the tags. -/
theorem readTags_dropLast {st : Option (List Char)} {s : List Char} {c : Char} (hc : IsPlain c)
    {tags : List (List Char)} (h : readTags st (s ++ [c]) = some tags) :
    readTags st s = some tags := by
  induction s generalizing st tags with
  | nil => cases st <;> simp_all [readTags, hc.1, hc.2]
  | cons d s ih =>
    rw [List.cons_append] at h
    rcases readTags_cons st d with hnone | ⟨st', front, hstep⟩
    · rw [hnone] at h
      exact nomatch h
    · rw [hstep] at h ⊢
      obtain ⟨rest, hrest, rfl⟩ := Option.map_eq_some_iff.mp h
      rw [ih hrest]
      rfl

/-! ### Tags of documents -/

/-- A tag: the opening one of an element, with its attributes, or the closing one. -/
inductive Tag
  | opening (name : String) (attributes : List (String × String))
  | closing (name : String)

/-- An attribute as it stands in a tag. -/
def quotedAttribute (a : String × String) : String := " " ++ a.1 ++ "=\"" ++ a.2 ++ "\""

/-- What stands between the brackets of a tag. -/
def Tag.inside : Tag → String
  | .opening name attributes => name ++ String.join (attributes.map quotedAttribute)
  | .closing name => "/" ++ name

/-- A tag. -/
def Tag.text (t : Tag) : String := "<" ++ t.inside ++ ">"

/-- The elements that documents are written with, and the attributes that each can have. -/
def forms : List (String × List String) :=
  [("!DOCTYPE html", []), ("html", ["lang"]), ("head", []), ("meta", ["charset"]),
   ("meta", ["name", "content"]), ("title", []), ("script", []), ("script", ["src"]), ("body", []),
   ("h1", ["id"]), ("h2", ["id"]), ("h3", ["id"]), ("h4", ["id"]), ("h5", ["id"]), ("h6", ["id"]),
   ("p", []), ("pre", []), ("code", []), ("code", ["class"]), ("div", ["class", "style"]),
   ("canvas", ["id"]), ("blockquote", []), ("ol", []), ("ol", ["start"]), ("ul", []), ("li", []),
   ("table", []), ("thead", []), ("tbody", []), ("tr", []), ("th", []), ("th", ["style"]),
   ("td", []), ("td", ["style"]), ("hr", []), ("em", []), ("strong", []), ("del", []),
   ("a", ["href"]), ("a", ["href", "title"]), ("img", ["src", "alt"]),
   ("img", ["src", "alt", "title"]), ("br", [])]

/-- The elements without an end. -/
def voids : List String := ["!DOCTYPE html", "meta", "hr", "img", "br"]

/-- A tag is one that documents are written with, and its attributes end at their quotes. -/
def Tag.IsWritten : Tag → Prop
  | .opening name attributes =>
    (name, attributes.map Prod.fst) ∈ forms ∧ ∀ a ∈ attributes, '"' ∉ a.2.toList
  | .closing name => name ∈ forms.map Prod.fst ∧ name ∉ voids

/-- The elements that are open behind a tag, the last one first. There are none where a tag closes
another element than the last one that was opened. -/
def Tag.nest (stack : List String) : Tag → Option (List String)
  | .opening name _ => some (if name ∈ voids then stack else name :: stack)
  | .closing name =>
    match stack with
    | top :: rest => if top = name then some rest else none
    | [] => none

/-- Markup is safe when its tags are those that documents are written with and nest. -/
def SafeMarkup (s : String) : Prop :=
  ∃ tags : List Tag, tagsOf s = some (tags.map fun t => t.inside.toList) ∧
    (∀ t ∈ tags, t.IsWritten) ∧ tags.foldlM Tag.nest [] = some []

/-! ### Nested markup -/

/-- Markup that can stand anywhere between tags: it leaves open what was open before it. -/
def Nested (s : String) : Prop :=
  ∃ tags : List Tag, tagsOf s = some (tags.map fun t => t.inside.toList) ∧
    (∀ t ∈ tags, t.IsWritten) ∧ ∀ stack, tags.foldlM Tag.nest stack = some stack

theorem Nested.safeMarkup {s : String} (h : Nested s) : SafeMarkup s := by
  obtain ⟨tags, htags, hwritten, hnest⟩ := h
  exact ⟨tags, htags, hwritten, hnest []⟩

/-- A text without angle brackets. -/
def PlainText (s : String) : Prop := ∀ c ∈ s.toList, IsPlain c

instance (c : Char) : Decidable (IsPlain c) := inferInstanceAs (Decidable (_ ∧ _))

instance (s : String) : Decidable (PlainText s) :=
  inferInstanceAs (Decidable (∀ c ∈ s.toList, IsPlain c))

theorem tagsOf_of_plain {s : String} (h : PlainText s) : tagsOf s = some [] := by
  have hread := readTags_none_append h []
  rwa [List.append_nil] at hread

theorem tagsOf_append {s t : String} {tags tags' : List (List Char)} (hs : tagsOf s = some tags)
    (ht : tagsOf t = some tags') : tagsOf (s ++ t) = some (tags ++ tags') := by
  rw [tagsOf] at hs ht ⊢
  rw [String.toList_append, readTags_append hs, ht]
  rfl

theorem PlainText.append {s t : String} (hs : PlainText s) (ht : PlainText t) :
    PlainText (s ++ t) := by
  simp only [PlainText, String.toList_append, List.forall_mem_append]
  exact ⟨hs, ht⟩

/-- A text without angle brackets and quotes, which can stand in an attribute. -/
def AttributeText (s : String) : Prop := ∀ c ∈ s.toList, IsPlain c ∧ c ≠ '"'

instance (s : String) : Decidable (AttributeText s) :=
  inferInstanceAs (Decidable (∀ c ∈ s.toList, IsPlain c ∧ c ≠ '"'))

theorem AttributeText.plainText {s : String} (h : AttributeText s) : PlainText s :=
  fun c hc => (h c hc).1

theorem attributeText_escape (s : String) : AttributeText (escape s) := by
  intro c hc
  rw [escape, String.toList_ofList] at hc
  obtain ⟨hlt, hgt, hquote, -⟩ := forall_mem_escape s.toList c hc
  exact ⟨⟨hlt, hgt⟩, hquote⟩

theorem Nested.of_plain {s : String} (h : PlainText s) : Nested s := by
  exact ⟨[], tagsOf_of_plain h, by simp, fun stack => rfl⟩

theorem Nested.empty : Nested "" := .of_plain (by decide)

/-- Markup is told by its characters. -/
theorem Nested.of_toList_eq {s t : String} (h : Nested s) (heq : t.toList = s.toList) : Nested t := by
  rwa [String.toList_inj.mp heq]

theorem Nested.append {s t : String} (hs : Nested s) (ht : Nested t) : Nested (s ++ t) := by
  obtain ⟨tags, htags, hwritten, hnest⟩ := hs
  obtain ⟨tags', htags', hwritten', hnest'⟩ := ht
  refine ⟨tags ++ tags', ?_, ?_, fun stack => ?_⟩
  · rw [tagsOf_append htags htags', List.map_append]
  · exact List.forall_mem_append.mpr ⟨hwritten, hwritten'⟩
  · rw [List.foldlM_append, hnest stack]
    exact hnest' stack

/-- A text without its last characters has the same tags if they are plain. -/
theorem Nested.of_append {s t : String} (ht : PlainText t) (h : Nested (s ++ t)) : Nested s := by
  obtain ⟨tags, htags, hwritten, hnest⟩ := h
  refine ⟨tags, ?_, hwritten, hnest⟩
  rw [tagsOf, String.toList_append] at htags
  -- The end is dropped character by character, and each of them is plain.
  have hdrop : ∀ u : List Char, (∀ c ∈ u, IsPlain c) → ∀ {v : List Char} {found},
      readTags none (v ++ u) = some found → readTags none v = some found := by
    intro u
    induction u with
    | nil => intro _ v found h; rwa [List.append_nil] at h
    | cons c u ih =>
      intro hu v found h
      rw [List.forall_mem_cons] at hu
      rw [List.append_cons] at h
      exact readTags_dropLast hu.1 (ih hu.2 h)
  exact hdrop t.toList ht htags

/-! ### Elements -/

/-- The attributes of an opening tag are those that its element can have. -/
def Fits (name : String) (attributes : List (String × String)) : Prop :=
  (name, attributes.map Prod.fst) ∈ forms ∧ ∀ a ∈ attributes, AttributeText a.2

theorem Fits.of_names {name : String} (names : List String) {attributes : List (String × String)}
    (hform : (name, names) ∈ forms) (hnames : attributes.map Prod.fst = names)
    (hvalues : ∀ a ∈ attributes, AttributeText a.2) : Fits name attributes :=
  ⟨hnames ▸ hform, hvalues⟩

/-- The names of elements and attributes hold no angle brackets. -/
theorem plainText_of_mem_forms {form : String × List String} (h : form ∈ forms) :
    PlainText form.1 ∧ ∀ name ∈ form.2, PlainText name := by
  have hall : ∀ form ∈ forms, PlainText form.1 ∧ ∀ name ∈ form.2, PlainText name := by
    decide +kernel
  exact hall form h

theorem Fits.plainText_inside {name : String} {attributes : List (String × String)}
    (h : Fits name attributes) : PlainText (Tag.opening name attributes).inside := by
  obtain ⟨hform, hvalues⟩ := h
  obtain ⟨hname, hnames⟩ := plainText_of_mem_forms hform
  refine hname.append fun c hc => ?_
  -- A character behind the name stands in one of the attributes.
  rw [String.toList_join, List.flatMap_map, List.mem_flatMap] at hc
  obtain ⟨a, ha, hc⟩ := hc
  have hattribute : PlainText (quotedAttribute a) :=
    ((((by decide : PlainText " ").append (hnames _ (List.mem_map_of_mem ha))).append
      (by decide)).append (hvalues a ha).plainText).append (by decide)
  exact hattribute c hc

theorem Fits.isWritten {name : String} {attributes : List (String × String)}
    (h : Fits name attributes) : (Tag.opening name attributes).IsWritten :=
  ⟨h.1, fun a ha hquote => (h.2 a ha _ hquote).2 rfl⟩

theorem tagsOf_text {t : Tag} (h : PlainText t.inside) : tagsOf t.text = some [t.inside.toList] := by
  have := readTags_some_append h [] []
  simp only [tagsOf, Tag.text, String.toList_append]
  simpa [readTags] using this

/-- An element without an end. -/
theorem Nested.void {name : String} {attributes : List (String × String)} (h : Fits name attributes)
    (hvoid : name ∈ voids) : Nested (Tag.opening name attributes).text := by
  refine ⟨[.opening name attributes], tagsOf_text h.plainText_inside, ?_, fun stack => ?_⟩
  · simpa using h.isWritten
  · simp [Tag.nest, hvoid]

/-- Markup between the tags of an element. -/
theorem Nested.element {name : String} {attributes : List (String × String)} {inner : String}
    (h : Fits name attributes) (hvoid : name ∉ voids) (hinner : Nested inner) :
    Nested ((Tag.opening name attributes).text ++ inner ++ (Tag.closing name).text) := by
  obtain ⟨tags, htags, hwritten, hnest⟩ := hinner
  have hclosing : PlainText (Tag.closing name).inside :=
    (by decide : PlainText "/").append (plainText_of_mem_forms h.1).1
  refine ⟨.opening name attributes :: tags ++ [.closing name], ?_, ?_, fun stack => ?_⟩
  · -- Each of the three parts is read to its end before the next one starts.
    have hopen := tagsOf_text h.plainText_inside
    have hclose := tagsOf_text hclosing
    rw [tagsOf_append (tagsOf_append hopen htags) hclose]
    simp
  · have hname : (Tag.closing name).IsWritten :=
      ⟨List.mem_map.mpr ⟨_, h.1, rfl⟩, hvoid⟩
    simp only [List.cons_append, List.forall_mem_cons, List.forall_mem_append]
    exact ⟨h.isWritten, hwritten, hname, by simp⟩
  · -- The element is on the stack while what it holds is read, and goes with its closing tag.
    simp [Tag.nest, hvoid, hnest]

end Chartdown.Html
