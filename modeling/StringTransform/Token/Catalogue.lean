import StringTransform.Token.Basic

/-!
# The catalogue of tokens

Programs are mostly written with a fixed set of named tokens. Sixteen of them match runs,
that is, one character of a class or more in a row; the others are the empty token and
the two ends of the text.

## Main definitions

* `Run` — the tokens that match runs of a class of characters
* `Run.contains` — the class
* `Catalogue` — all named tokens
* `Catalogue.all` — the catalogue in its order
* `Catalogue.name`, `Catalogue.token` — an entry's name and token
-/

namespace StringTransform

/-- The tokens that match runs of a class of characters. -/
inductive Run where
  | num | alpha | lower | upper
  /-- The letters of Latin-1 outside ASCII, with the two signs between them. -/
  | accent
  | alphanumeric | whitespace | nonWhitespace | comma
  /-- Slashes of either slope. -/
  | slash
  | hyphen | leftParen | rightParen
  /-- Anything but the line feed. -/
  | any
  | word | dot
  deriving DecidableEq, Repr

namespace Run

def all : List Run :=
  [num, alpha, lower, upper, accent, alphanumeric, whitespace, nonWhitespace, comma, slash,
    hyphen, leftParen, rightParen, any, word, dot]

def name : Run → String
  | num => "num"
  | alpha => "alpha"
  | lower => "lower"
  | upper => "upper"
  | accent => "accent"
  | alphanumeric => "alphanumeric"
  | whitespace => "whitespace"
  | nonWhitespace => "non_whitespace"
  | comma => "comma"
  | slash => "slash"
  | hyphen => "hyphen"
  | leftParen => "left_paren"
  | rightParen => "right_paren"
  | any => "any"
  | word => "word"
  | dot => "dot"

/-- Whether a character belongs to the class. -/
def contains : Run → Char → Bool
  | num, c => c.isDigit
  | alpha, c => c.isAlpha
  | lower, c => c.isLower
  | upper, c => c.isUpper
  | accent, c => '\u00C0' ≤ c && c ≤ '\u00FF'
  | alphanumeric, c => c.isAlphanum
  | whitespace, c => isBlank c
  | nonWhitespace, c => !isBlank c
  | comma, c => c == ','
  | slash, c => c == '\\' || c == '/'
  | hyphen, c => c == '-'
  | leftParen, c => c == '('
  | rightParen, c => c == ')'
  | any, c => c != '\n'
  | word, c => isWordChar c
  | dot, c => c == '.'

/-- The text of one character of the class. -/
def classSource : Run → String
  | num => "\\d"
  | alpha => "[a-zA-Z]"
  | lower => "[a-z]"
  | upper => "[A-Z]"
  | accent => "[\\u00C0-\\u00FF]"
  | alphanumeric => "[a-zA-Z0-9]"
  | whitespace => "\\s"
  | nonWhitespace => "\\S"
  | comma => ","
  | slash => "(\\\\|/)"
  | hyphen => "-"
  | leftParen => "\\("
  | rightParen => "\\)"
  | any => "."
  | word => "\\w"
  | dot => "\\."

/-- The pattern of one character of the class. -/
def classPattern : Run → Pattern
  | num => .single (.digit false)
  | alpha => .single (.set false [.range 'a' 'z', .range 'A' 'Z'])
  | lower => .single (.set false [.range 'a' 'z'])
  | upper => .single (.set false [.range 'A' 'Z'])
  | accent => .single (.set false [.range '\u00C0' '\u00FF'])
  | alphanumeric => .single (.set false [.range 'a' 'z', .range 'A' 'Z', .range '0' '9'])
  | whitespace => .single (.space false)
  | nonWhitespace => .single (.space true)
  | comma => .single (.literal ',')
  | slash =>
    .group (.alt [.seq [.single (.literal '\\')], .seq [.single (.literal '/')]])
  | hyphen => .single (.literal '-')
  | leftParen => .single (.literal '(')
  | rightParen => .single (.literal ')')
  | any => .single .dot
  | word => .single (.word false)
  | dot => .single (.literal '.')

/-- The token: as many characters of the class in a row as possible, but at least one. -/
def token (r : Run) : Token :=
  ⟨r.classSource ++ "+", .seq [.quantified .oneOrMore r.classPattern]⟩

end Run

/-- The named tokens. -/
inductive Catalogue where
  | run (r : Run)
  | empty
  | start
  | stop
  deriving DecidableEq, Repr

namespace Catalogue

/-- The catalogue in its order. -/
def all : List Catalogue :=
  Run.all.map run ++ [empty, start, stop]

def name : Catalogue → String
  | run r => r.name
  | empty => "epsilon"
  | start => "start"
  | stop => "end"

def token : Catalogue → Token
  | run r => r.token
  | empty => .empty
  | start => ⟨"\\A", .seq [.anchor .textStart]⟩
  | stop => ⟨"\\Z", .seq [.anchor .textEnd]⟩

/-- The entry of the given name. -/
def ofName? (name : String) : Option Catalogue :=
  all.find? (·.name == name)

end Catalogue

end StringTransform
