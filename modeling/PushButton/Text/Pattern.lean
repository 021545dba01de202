import PushButton.Text.Symbol

/-!
# Patterns of texts

A pattern is a regular expression over symbols. It is matched by derivatives: the derivative of a
pattern by a symbol matches what may follow that symbol. Main statement: matching a text with one
more symbol in front is matching the text with the derivative.
-/

namespace PushButton

/-- A regular expression over symbols. -/
inductive Pattern where
  /-- Matches nothing. -/
  | never
  /-- Matches the empty text. -/
  | empty
  /-- Matches one symbol that satisfies a test. -/
  | one (test : Symbol → Bool)
  /-- Matches a text of the first pattern followed by one of the second. -/
  | seq (p q : Pattern)
  /-- Matches what one of two patterns matches. -/
  | alt (p q : Pattern)
  /-- Matches any number of texts of a pattern, one after another. -/
  | star (p : Pattern)

namespace Pattern

/-- The empty text matches. -/
def acceptsEmpty : Pattern → Bool
  | never => false
  | empty => true
  | one _ => false
  | seq p q => p.acceptsEmpty && q.acceptsEmpty
  | alt p q => p.acceptsEmpty || q.acceptsEmpty
  | star _ => true

/-- A sequence in which a part that matches nothing is not kept. -/
def followedBy : Pattern → Pattern → Pattern
  | never, _ => never
  | empty, q => q
  | p, q => seq p q

/-- A choice in which a part that matches nothing is not kept. -/
def or : Pattern → Pattern → Pattern
  | never, q => q
  | p, never => p
  | p, q => alt p q

/-- What may follow a symbol. -/
def derivative (s : Symbol) : Pattern → Pattern
  | never => never
  | empty => never
  | one test => if test s then empty else never
  | seq p q =>
    let first := (p.derivative s).followedBy q
    if p.acceptsEmpty then first.or (q.derivative s) else first
  | alt p q => (p.derivative s).or (q.derivative s)
  | star p => (p.derivative s).followedBy (star p)

/-- The whole text matches. -/
def accepts (p : Pattern) : Text → Bool
  | [] => p.acceptsEmpty
  | s :: rest => (p.derivative s).accepts rest

/-- Exactly one character. -/
def char (c : Char) : Pattern := one (· = .char c)

/-- One character of a string. -/
def anyOf (cs : String) : Pattern := one fun s => cs.toList.any fun c => s = .char c

/-- The characters of a string in a row. -/
def word (s : String) : Pattern := s.toList.foldr (fun c p => (char c).followedBy p) empty

/-- One of several words. -/
def words (ws : List String) : Pattern := ws.foldr (fun w p => (word w).or p) never

/-- Patterns in a row. -/
def row (ps : List Pattern) : Pattern := ps.foldr followedBy empty

/-- One of several patterns. -/
def anyPattern (ps : List Pattern) : Pattern := ps.foldr or never

/-- A pattern or nothing. -/
def maybe (p : Pattern) : Pattern := or empty p

/-- A pattern at least once. -/
def many (p : Pattern) : Pattern := followedBy p (star p)

/-- A digit. -/
def digit : Pattern := one Symbol.isDigit

@[simp] theorem accepts_cons (p : Pattern) (s : Symbol) (rest : Text) :
    p.accepts (s :: rest) = (p.derivative s).accepts rest := rfl

@[simp] theorem accepts_never (t : Text) : never.accepts t = false := by
  induction t with
  | nil => rfl
  | cons s rest ih => exact ih

end Pattern

end PushButton
