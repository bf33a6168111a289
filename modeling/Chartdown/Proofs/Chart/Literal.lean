import Chartdown.Chart.Markup
import Chartdown.Proofs.Json.RoundTrip

/-!
# The literals of a script are safe and lossless

A value that is handed to a script is written as JSON in which the characters that markup takes for
its own are escaped. No such character is left, and the literal is still read as the value.

## Key results

- `escaping_scriptChar`: what is done to the text of a value is a way of writing its characters
- `scriptLiteral_decode`: a literal holds harmless characters only and decodes as its value
-/

namespace Chartdown.Chart

open Json (Escaping Prints isPortable depthLimit)

theorem escaping_scriptChar : Escaping scriptChar where
  plain c hc := by
    simp only [List.mem_cons, List.not_mem_nil, or_false, not_or] at hc
    obtain ⟨hopen, hclose, hamp⟩ := hc
    simp only [scriptChar, hopen, hclose, hamp, if_false]
  marked c hc := by
    simp only [List.mem_cons, List.not_mem_nil, or_false] at hc
    rcases hc with rfl | rfl | rfl
    all_goals exact .inr (by decide)

/-- Each character of a literal prints, and none is one that markup takes for its own. -/
theorem prints_of_mem_scriptChar {c d : Char} (hc : Prints c) (hd : d ∈ scriptChar c) :
    Prints d ∧ d ∉ ['<', '>', '&'] := by
  by_cases hmarked : c ∈ ['<', '>', '&']
  · simp only [List.mem_cons, List.not_mem_nil, or_false] at hmarked
    rcases hmarked with rfl | rfl | rfl
    all_goals
      revert d
      decide
  · rw [escaping_scriptChar.plain c hmarked, List.mem_singleton] at hd
    exact hd ▸ ⟨hc, hmarked⟩

/-- A value that can be written and read back has a literal of printable characters of ASCII without
`<`, `>` and `&`, and the literal decodes as the value, members in their order. -/
theorem scriptLiteral_decode (v : Json) (h : isPortable depthLimit v = true) :
    ∃ s, scriptLiteral v = .ok s ∧
      (∀ c ∈ s, 0x20 ≤ c.toNat ∧ c.toNat < 0x7f ∧ c ≠ '<' ∧ c ≠ '>' ∧ c ≠ '&') ∧
      ∀ constants, Json.decode constants s = .ok v := by
  refine ⟨(Json.text v).flatMap scriptChar, ?_, fun c hc => ?_, fun constants => ?_⟩
  · rw [scriptLiteral, Json.encode, Json.obstacle?_of_isPortable depthLimit v h]
    rfl
  · obtain ⟨d, hd, hc⟩ := List.mem_flatMap.mp hc
    obtain ⟨hprints, hmarked⟩ := prints_of_mem_scriptChar (Json.prints_text v d hd) hc
    simp only [List.mem_cons, List.not_mem_nil, or_false, not_or] at hmarked
    exact ⟨hprints.1, hprints.2, hmarked⟩
  · exact Json.decode_text escaping_scriptChar constants h

/-- A value of every kind. -/
def mixedValue : Json :=
  .object [(Text.Utf16.ofString "</script>&\u2028𝄞", .array
      [.null, .bool true, .number (.integer (-5)), .number (.double (.ofRatio true 1 10 (by decide))),
        .ofString "\"\\\n<!--"]),
    (Text.Utf16.ofString "", .object [])]

theorem scriptLiteral_decode_mixed :
    isPortable depthLimit mixedValue = true ∧ ∃ s, scriptLiteral mixedValue = .ok s ∧
      (∀ c ∈ s, 0x20 ≤ c.toNat ∧ c.toNat < 0x7f ∧ c ≠ '<' ∧ c ≠ '>' ∧ c ≠ '&') ∧
      ∀ constants, Json.decode constants s = .ok mixedValue :=
  have h : isPortable depthLimit mixedValue = true := by decide +kernel
  ⟨h, scriptLiteral_decode mixedValue h⟩

end Chartdown.Chart
