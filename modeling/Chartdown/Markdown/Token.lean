/-! # Tokens of Markdown

What a reader of Markdown makes of a text: a tree of tokens, each with a type, the raw text behind
it or tokens below it, and attributes. Types are open: readers may make tokens of types that
nothing here knows.
-/

namespace Chartdown.Markdown

/-- The attributes of a token. -/
structure Attributes where
  level : Option Int := none
  info : Option String := none
  ordered : Option Bool := none
  start : Option Int := none
  tight : Option Bool := none
  checked : Option Bool := none
  url : Option String := none
  title : Option String := none
  align : Option String := none

/-- A token. -/
inductive Token
  | mk (type : String) (raw : Option String) (children : List Token) (attributes : Attributes)
      (marker : Option String) (tight : Option Bool)

instance : Inhabited Token := ⟨.mk "" none [] {} none none⟩

namespace Token

/-- The type of a token. -/
def type : Token → String
  | mk type .. => type

/-- The tokens below a token. -/
def children : Token → List Token
  | mk _ _ children .. => children

/-- The attributes of a token. -/
def attributes : Token → Attributes
  | mk _ _ _ attributes .. => attributes

/-- The raw text of a token, empty where it has none. -/
def text : Token → String
  | mk _ raw .. => raw.getD ""

/-- A token of a type with raw text. -/
def ofText (type raw : String) : Token := mk type (some raw) [] {} none none

/-- A token of a type with tokens below it. -/
def ofChildren (type : String) (children : List Token) (attributes : Attributes := {}) : Token :=
  mk type none children attributes none none

mutual
/-- The raw text of a token or, where it has none, of the tokens below it. -/
def flatten : Token → String
  | mk _ raw children .. =>
    match raw with
    | some s => if s = "" then flattenAll children else s
    | none => flattenAll children

/-- The raw texts of some tokens. -/
def flattenAll : List Token → String
  | [] => ""
  | t :: rest => t.flatten ++ flattenAll rest
end

end Token
end Chartdown.Markdown
