import Chartdown.Proofs.Html.Tags
import Chartdown.Proofs.Text.Lines
import Mathlib.Data.List.Infix

/-!
# Elements and attributes that a reader finds

A reader finds an element by its tags, as what stands between the first opening tag and the next
closing one, and it finds an attribute in a tag between quotes, behind its name, with its entities
undone. What was written as a tag is read as the name and the attributes of that tag.

## Key results

- `elementContent?_of_tagsOf`: an element is found behind what does not open it
- `attributesOf_inside`: the attributes of a tag that was written
- `attributeValues?_of_tags`: the values of an attribute in a markup whose tags are known
-/

namespace Chartdown.Html

open Text

/-! ### Elements -/

/-- What stands between the first opening tag of an element without attributes and the next closing
one. -/
def elementContent? (name : String) (s : List Char) : Option (List Char) :=
  (s.dropInfix? (Tag.opening name []).text.toList).bind fun opened =>
    (opened.2.dropInfix? (Tag.closing name).text.toList).map (·.1)

/-- A mark is found behind what does not hold it, not even with a part of the mark. -/
theorem dropInfix?_append {mark front : List Char} (hmark : mark ≠ [])
    (h : ¬ mark <:+: front ++ mark.dropLast) (rest : List Char) :
    (front ++ (mark ++ rest)).dropInfix? mark = some (front, rest) := by
  rw [List.dropInfix?_eq_some_iff]
  refine ⟨⟨mark, (List.append_assoc _ _ _).symm, beq_self_eq_true mark⟩, ?_⟩
  intro before found after heq hfound
  rw [eq_of_beq hfound] at heq
  by_contra hlt
  -- A mark that is found sooner ends in front of the last character of the given one.
  apply h
  have hlength : mark.dropLast.length = mark.length - 1 := List.length_dropLast
  have hpos : 0 < mark.length := List.length_pos_iff.mpr hmark
  have hfront : front ++ mark.dropLast <+: front ++ (mark ++ rest) :=
    (List.prefix_append_right_inj front).mpr
      ((List.dropLast_prefix mark).trans (List.prefix_append _ _))
  have hbefore : before ++ mark <+: front ++ (mark ++ rest) := ⟨after, heq.symm⟩
  have hstart := List.prefix_of_prefix_length_le hbefore hfront (by
    simp only [List.length_append]
    omega)
  exact (List.suffix_append before mark).isInfix.trans hstart.isInfix

/-- What is read behind a character is read with it, too. -/
theorem exists_readTags_of_cons {st : Option (List Char)} {c : Char} {s : List Char}
    {tags : List (List Char)} (h : readTags st (c :: s) = some tags) :
    ∃ st' rest, readTags st' s = some rest ∧ rest ⊆ tags := by
  rcases readTags_cons st c with hnone | ⟨st', front, hstep⟩
  · rw [hnone] at h
    exact nomatch h
  · rw [hstep] at h
    obtain ⟨rest, hrest, rfl⟩ := Option.map_eq_some_iff.mp h
    exact ⟨st', rest, hrest, List.subset_append_right front rest⟩

theorem Tag.toList_text (t : Tag) : t.text.toList = '<' :: t.inside.toList ++ ['>'] := by
  simp [Tag.text]

/-- A tag that stands in a text is one of those that are read there. -/
theorem mem_of_isInfix_text {t : Tag} (ht : PlainText t.inside) {st : Option (List Char)}
    {s : List Char} {tags : List (List Char)} (hs : readTags st s = some tags)
    (h : t.text.toList <:+: s) : t.inside.toList ∈ tags := by
  obtain ⟨before, after, rfl⟩ := h
  induction before generalizing st tags with
  | nil =>
    rw [List.nil_append, t.toList_text, List.cons_append, List.cons_append, List.append_assoc,
      List.singleton_append] at hs
    cases st with
    | none =>
      rw [readTags, if_pos rfl, readTags_some_append ht] at hs
      obtain ⟨rest, -, rfl⟩ := Option.map_eq_some_iff.mp hs
      exact List.mem_cons_self
    | some inside => simp [readTags] at hs
  | cons c before ih =>
    obtain ⟨st', rest, hrest, hsubset⟩ := exists_readTags_of_cons hs
    exact hsubset (ih hrest)

/-- A tag that is not read in a text does not stand there, nor does it end in its own front. -/
theorem not_isInfix_text {t : Tag} (ht : PlainText t.inside) {s : String}
    {tags : List (List Char)} (hs : tagsOf s = some tags) (hnot : t.inside.toList ∉ tags) :
    ¬ t.text.toList <:+: s.toList ++ t.text.toList.dropLast := by
  have hfront : '>' ∉ ('<' :: t.inside.toList).reverse := by
    rw [List.mem_reverse, List.mem_cons, not_or]
    exact ⟨by decide, fun h => (ht _ h).2 rfl⟩
  intro h
  rw [t.toList_text, List.dropLast_concat] at h
  -- Read backwards, the tag starts with a bracket that its own front does not hold.
  rw [← List.reverse_infix, List.reverse_append, List.reverse_append, List.reverse_singleton,
    List.singleton_append] at h
  have hstands := isInfix_of_append_of_not_mem hfront h
  rw [← List.singleton_append, ← List.reverse_singleton, ← List.reverse_append, List.reverse_infix,
    ← t.toList_text] at hstands
  exact hnot (mem_of_isInfix_text ht hs hstands)

/-- An element is found behind what does not open it, and ends where it is closed first. -/
theorem elementContent?_of_tagsOf {name before inner : String} (after : String)
    {tags tags' : List (List Char)} (hname : PlainText name) (hbefore : tagsOf before = some tags)
    (hopen : (Tag.opening name []).inside.toList ∉ tags) (hinner : tagsOf inner = some tags')
    (hclose : (Tag.closing name).inside.toList ∉ tags') :
    elementContent? name (before ++ (Tag.opening name []).text ++ inner ++
      (Tag.closing name).text ++ after).toList = some inner.toList := by
  have hplainOpen : PlainText (Tag.opening name []).inside := hname.append (by decide)
  have hplainClose : PlainText (Tag.closing name).inside := (by decide : PlainText "/").append hname
  have hne (t : Tag) : t.text.toList ≠ [] := by simp [Tag.text]
  simp only [String.toList_append, List.append_assoc]
  rw [elementContent?, dropInfix?_append (hne _) (not_isInfix_text hplainOpen hbefore hopen),
    Option.bind_some, dropInfix?_append (hne _) (not_isInfix_text hplainClose hinner hclose),
    Option.map_some]

/-! ### Attributes -/

/-- The value of an attribute that was escaped. -/
theorem unescapeChars_escape (s : String) : unescapeChars (escape s).toList = s.toList := by
  rw [escape, String.toList_ofList, unescape_escape]

/-- The name of an attribute, behind the last space of what stands in front of its value. It ends
with an equals sign. -/
def attributeName (front : List Char) : List Char := ((cutAt ' ' front).getLastD []).dropLast

/-- Attributes from the parts of a tag between its quotes: what stands in front of a value, and the
value, by turns. The entities of a value are undone. -/
def readAttributes : List (List Char) → List (List Char × List Char)
  | front :: value :: rest => (attributeName front, unescapeChars value) :: readAttributes rest
  | _ => []

/-- The attributes of a tag, from what stands between its brackets. -/
def attributesOf (inside : List Char) : List (List Char × List Char) :=
  readAttributes (cutAt '"' inside)

/-- The name of the element of a tag, from what stands between its brackets. -/
def elementName (inside : List Char) : List Char := (cutAt ' ' inside).headD []

/-- The values of an attribute in all tags of an element, in the order of the tags. There are none
where brackets are no tags. -/
def attributeValues? (element name : String) (s : List Char) : Option (List (List Char)) :=
  (readTags none s).map fun tags => tags.flatMap fun inside =>
    if elementName inside = element.toList then
      ((attributesOf inside).filter (·.1 = name.toList)).map (·.2)
    else []

/-- A name that ends at a space, an equals sign or a quote. -/
def IsName (name : String) : Prop := ' ' ∉ name.toList ∧ '"' ∉ name.toList

instance (name : String) : Decidable (IsName name) := inferInstanceAs (Decidable (_ ∧ _))

theorem attributeName_append (front : List Char) {name : List Char} (h : ' ' ∉ name) :
    attributeName (front ++ ' ' :: (name ++ ['='])) = name := by
  have hname : ' ' ∉ name ++ ['='] := by simp [h]
  rw [attributeName, cutAt_append_cons, cutAt_of_not_mem hname, List.getLastD_concat,
    List.dropLast_concat]

/-- The attributes behind a part of a tag without quotes. -/
theorem readAttributes_append {front : List Char} (hfront : '"' ∉ front)
    {attributes : List (String × String)}
    (h : ∀ a ∈ attributes, IsName a.1 ∧ '"' ∉ a.2.toList) :
    readAttributes (cutAt '"' (front ++ (String.join (attributes.map quotedAttribute)).toList)) =
      attributes.map fun a => (a.1.toList, unescapeChars a.2.toList) := by
  induction attributes generalizing front with
  | nil => simp [cutAt_of_not_mem hfront, readAttributes]
  | cons a attributes ih =>
    rw [List.forall_mem_cons] at h
    obtain ⟨⟨⟨hspace, hquote⟩, hvalue⟩, hrest⟩ := h
    -- The attribute falls into what stands in front of its value, the value, and what follows.
    have hsplit : front ++ (String.join ((a :: attributes).map quotedAttribute)).toList =
        (front ++ ' ' :: (a.1.toList ++ ['='])) ++ '"' :: (a.2.toList ++ '"' ::
          (String.join (attributes.map quotedAttribute)).toList) := by
      simp [quotedAttribute]
    have hname : '"' ∉ front ++ ' ' :: (a.1.toList ++ ['=']) := by simp [hfront, hquote]
    have hih := @ih [] (by simp) hrest
    rw [List.nil_append] at hih
    rw [hsplit, cutAt_append_cons, cutAt_append_cons, cutAt_of_not_mem hname,
      cutAt_of_not_mem hvalue, List.singleton_append, List.singleton_append, readAttributes,
      attributeName_append front hspace, hih, List.map_cons]

/-- A tag that was written is read as the name and the attributes that it was written with. -/
theorem attributesOf_inside {element : String} (helement : IsName element)
    {attributes : List (String × String)} (h : ∀ a ∈ attributes, IsName a.1 ∧ '"' ∉ a.2.toList) :
    elementName (Tag.opening element attributes).inside.toList = element.toList ∧
      attributesOf (Tag.opening element attributes).inside.toList =
        attributes.map fun a => (a.1.toList, unescapeChars a.2.toList) := by
  rw [Tag.inside, String.toList_append]
  refine ⟨?_, readAttributes_append helement.2 h⟩
  cases attributes with
  | nil => simp [elementName, cutAt_of_not_mem helement.1]
  | cons a attributes =>
    have hspace : (String.join ((a :: attributes).map quotedAttribute)).toList =
        ' ' :: (a.1 ++ "=\"" ++ a.2 ++ "\"" ++
          String.join (attributes.map quotedAttribute)).toList := by
      simp [quotedAttribute]
    rw [hspace, elementName, cutAt_append_cons, cutAt_of_not_mem helement.1]
    rfl

/-- The values of an attribute in a tag that was written. -/
def Tag.valuesOf (element name : String) : Tag → List (List Char)
  | .opening e attributes =>
    if e = element then
      (attributes.filter (·.1 = name)).map fun a => unescapeChars a.2.toList
    else []
  | .closing _ => []

/-- A tag whose names end where a reader looks for their ends, and its values at their quotes. -/
def Tag.IsReadable : Tag → Prop
  | .opening element attributes =>
    IsName element ∧ ∀ a ∈ attributes, IsName a.1 ∧ '"' ∉ a.2.toList
  | .closing element => '"' ∉ element.toList

instance : DecidablePred Tag.IsReadable
  | .opening _ _ => inferInstanceAs (Decidable (_ ∧ _))
  | .closing _ => inferInstanceAs (Decidable (¬ _))

theorem Tag.values_inside {t : Tag} (h : t.IsReadable) (element name : String) :
    (if elementName t.inside.toList = element.toList then
        ((attributesOf t.inside.toList).filter (·.1 = name.toList)).map (·.2)
      else []) = t.valuesOf element name := by
  cases t with
  | opening e attributes =>
    obtain ⟨helement, hattributes⟩ := attributesOf_inside h.1 h.2
    rw [helement, hattributes, Tag.valuesOf, List.filter_map, List.map_map]
    simp only [String.toList_inj, Function.comp_def]
  | closing e =>
    -- A closing tag has no attributes.
    have hinside : '"' ∉ (Tag.closing e).inside.toList := by
      have hquote : '"' ∉ e.toList := h
      simp [Tag.inside, hquote]
    simp [attributesOf, cutAt_of_not_mem hinside, readAttributes, Tag.valuesOf]

/-- The values of an attribute in a markup are those in the tags that it was written with. -/
theorem attributeValues?_of_tags {s : List Char} {tags : List Tag}
    (hs : readTags none s = some (tags.map (·.inside.toList))) (h : ∀ t ∈ tags, t.IsReadable)
    (element name : String) :
    attributeValues? element name s = some (tags.flatMap (Tag.valuesOf element name)) := by
  rw [attributeValues?, hs, Option.map_some, List.flatMap_map]
  exact congrArg some (List.flatMap_congr fun t ht => Tag.values_inside (h t ht) element name)

end Chartdown.Html
