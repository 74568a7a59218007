import StringTransform.Pattern.SetReading

/-!
# Reading patterns

A pattern text is read one character at a time. What has been read so far is kept as a
stack of open groups, the branches and members of the innermost of them, and a mode that
says which construct the next character belongs to. No character is looked at before its
turn: an atom is held back until the next character shows whether a quantifier follows,
and a character of a set is held back until it is clear whether it starts a range. So
nothing that has been decided depends on what comes later, and a fault found in a part
of a text stays the fault of the whole.

The notation has alternatives `a|b`, groups `(a)` and `(?:a)`, lookaheads `(?=a)` and
`(?!a)`, the greedy quantifiers `?`, `*` and `+`, sets such as `[^a-z\d]`, the anchors
`^` and `$`, the dot, and escapes.

## Main definitions

* `Reading` — what has been read so far
* `Reading.step` — how the next character extends it
* `Reading.finish` — the pattern that has been read, if the text may end here
* `Pattern.parse` — the pattern that a text denotes
* `Pattern.parseFrom` — the same from a byte offset on

## Main results

* `Reading.read_append` — reading a text in two parts is reading the whole
-/

namespace StringTransform

/-- What the closing parenthesis of a group will make of its content. -/
inductive GroupKind where
  | plain
  | look (negated : Bool)
  deriving DecidableEq, Repr

/-- The atom that a group of this kind is, given its content. -/
def GroupKind.wrap : GroupKind → Pattern → Pattern
  | .plain, p => .group p
  | .look negated, p => .look negated p

/-- The content of a group, as far as it has been read. -/
structure Level where
  /-- The branches completed so far, newest first. -/
  branches : List Pattern
  /-- The members of the branch being read, newest first. -/
  members : List Pattern
  deriving DecidableEq, Repr

namespace Level

/-- Nothing has been read. -/
def empty : Level := ⟨[], []⟩

/-- Adds a member to the branch being read. -/
def push (level : Level) (p : Pattern) : Level :=
  { level with members := p :: level.members }

/-- Completes the branch being read and starts the next one. -/
def split (level : Level) : Level :=
  ⟨.seq level.members.reverse :: level.branches, []⟩

/-- The whole content: a sequence if there is one branch, and alternatives otherwise. -/
def tree : Level → Pattern
  | ⟨[], members⟩ => .seq members.reverse
  | ⟨branches, members⟩ => .alt (.seq members.reverse :: branches).reverse

end Level

/-- A group whose closing parenthesis has not been read. -/
structure OpenGroup where
  kind : GroupKind
  /-- The offset of its opening parenthesis. -/
  start : Nat
  /-- What stands before it at the level that contains it. -/
  enclosing : Level
  deriving DecidableEq, Repr

/-- Which construct the next character belongs to. -/
inductive Mode where
  /-- No construct is open. An atom that may still take a quantifier is held back. -/
  | between (pending : Option Pattern)
  /-- The opening parenthesis at `start` has been read. -/
  | opened (start : Nat)
  /-- The opening parenthesis at `start` and a question mark have been read. -/
  | kind (start : Nat)
  /-- The backslash at `start` has been read. -/
  | escape (start : Nat)
  /-- Some digits of the escape at `start` have been read. -/
  | code (start : Nat) (digits : CodeDigits)
  | set (reading : SetReading)
  deriving DecidableEq, Repr

/-- What has been read of a pattern text. -/
structure Reading where
  /-- The number of bytes up to here. -/
  offset : Nat
  level : Level
  /-- The open groups, innermost first. -/
  groups : List OpenGroup
  mode : Mode
  deriving DecidableEq, Repr

/-- The quantifier that a character denotes. -/
def Quantifier.ofChar? : Char → Option Quantifier
  | '?' => some .zeroOrOne
  | '*' => some .zeroOrMore
  | '+' => some .oneOrMore
  | _ => none

/-- The atom that the character after a backslash denotes, unless it starts a code-point
escape. A character without a meaning of its own denotes itself. -/
def escapedAtom (c : Char) : Pattern :=
  match c with
  | 'd' => .single (.digit false)
  | 'D' => .single (.digit true)
  | 'w' => .single (.word false)
  | 'W' => .single (.word true)
  | 's' => .single (.space false)
  | 'S' => .single (.space true)
  | 'b' => .anchor (.wordBoundary false)
  | 'B' => .anchor (.wordBoundary true)
  | 'A' => .anchor .textStart
  | 'Z' => .anchor .textEnd
  | 'z' => .anchor .absoluteEnd
  | c => .single (.literal (unescape c))

namespace Reading

/-- Nothing has been read, and what follows starts at `offset`. -/
def start (offset : Nat) : Reading := ⟨offset, .empty, [], .between none⟩

/-- Holds an atom back until the next character shows whether a quantifier follows. -/
def hold (r : Reading) (p : Pattern) : Reading :=
  { r with mode := .between (some p) }

/-- Adds the atom held back to the branch being read. -/
def flush (r : Reading) (pending : Option Pattern) : Reading :=
  { r with level := pending.elim r.level r.level.push, mode := .between none }

/-- Opens a group at the parenthesis at `start`. -/
def openGroup (r : Reading) (kind : GroupKind) (start : Nat) : Reading :=
  { r with level := .empty, groups := ⟨kind, start, r.level⟩ :: r.groups, mode := .between none }

/-- Closes the innermost group, which then is an atom of the level around it. -/
def closeGroup (r : Reading) : Except PatternFault Reading :=
  match r.groups with
  | [] => .error (.unmatchedParen r.offset)
  | group :: groups =>
    .ok { r with
      level := group.enclosing, groups,
      mode := .between (some (group.kind.wrap r.level.tree)) }

/-- Starts a construct when no atom is held back. -/
def startAtom (r : Reading) (c : Char) : Except PatternFault Reading :=
  match c with
  | '(' => .ok { r with mode := .opened r.offset }
  | ')' => r.closeGroup
  | '|' => .ok { r with level := r.level.split }
  | '[' => .ok { r with mode := .set (.opened r.offset) }
  | '\\' => .ok { r with mode := .escape r.offset }
  | '.' => .ok (r.hold (.single .dot))
  | '^' => .ok (r.hold (.anchor .textStart))
  | '$' => .ok (r.hold (.anchor .textEnd))
  | c => .ok (r.hold (.single (.literal c)))

/-- Takes a character when no construct is open: a quantifier applies to the atom held
back, and anything else leaves that atom as it is. -/
def stepBetween (r : Reading) (pending : Option Pattern) (c : Char) :
    Except PatternFault Reading :=
  match Quantifier.ofChar? c, pending with
  | some q, some p => .ok (r.flush (some (.quantified q p)))
  | some _, none => .error (.nothingToRepeat c r.offset)
  | none, pending => (r.flush pending).startAtom c

/-- Takes the character that tells what kind of group it is. -/
def stepKind (r : Reading) (start : Nat) (c : Char) : Except PatternFault Reading :=
  match c with
  | ':' => .ok (r.openGroup .plain start)
  | '!' => .ok (r.openGroup (.look true) start)
  | '=' => .ok (r.openGroup (.look false) start)
  | c => .error (.unsupportedGroup c)

/-- Takes a digit of a code-point escape. -/
def stepCode (r : Reading) (start : Nat) (digits : CodeDigits) (c : Char) :
    Except PatternFault Reading :=
  match digits.extend? c with
  | none => .error (.invalidUnicodeEscape start)
  | some digits =>
    if digits.count < 4 then .ok { r with mode := .code start digits }
    else match digits.char? with
      | none => .error (.invalidUnicodeEscape start)
      | some c => .ok (r.hold (.single (.literal c)))

/-- Takes a character according to the mode, leaving the offset where it is. -/
def take (r : Reading) (c : Char) : Except PatternFault Reading :=
  match r.mode with
  | .between pending => r.stepBetween pending c
  | .opened start =>
    if c = '?' then .ok { r with mode := .kind start }
    else (r.openGroup .plain start).stepBetween none c
  | .kind start => r.stepKind start c
  | .escape start =>
    if c = 'u' then .ok { r with mode := .code start .empty }
    else .ok (r.hold (escapedAtom c))
  | .code start digits => r.stepCode start digits c
  | .set reading =>
    (reading.step r.offset c).map fun
      | .inl reading => { r with mode := .set reading }
      | .inr test => r.hold (.single test)

/-- Reads the next character. -/
def step (r : Reading) (c : Char) : Except PatternFault Reading :=
  (r.take c).map fun next => { next with offset := r.offset + c.utf8Size }

/-- Reads characters one after the other. -/
def read (r : Reading) (cs : List Char) : Except PatternFault Reading :=
  cs.foldlM step r

/-- The pattern that has been read, if the text may end here. -/
def finish (r : Reading) : Except PatternFault Pattern :=
  match r.mode with
  | .between pending =>
    match r.groups with
    | [] => .ok (r.flush pending).level.tree
    | group :: _ => .error (.unclosedGroup group.start)
  | .opened start | .kind start => .error (.unclosedGroup start)
  | .escape _ => .error .danglingEscape
  | .code start _ => .error (.invalidUnicodeEscape start)
  | .set reading => .error reading.fault

/-- Reading a text in two parts is reading the whole. -/
theorem read_append (r : Reading) (cs ds : List Char) :
    r.read (cs ++ ds) = (r.read cs).bind fun next => next.read ds :=
  List.foldlM_append

end Reading

/-- The characters of a text from a byte offset on. -/
def afterBytes : List Char → Nat → List Char
  | [], _ => []
  | c :: cs, n => if n = 0 then c :: cs else afterBytes cs (n - c.utf8Size)

namespace Pattern

/-- Reads characters the first of which stands at `offset`. The result is the pattern with
the offset at which reading stopped. -/
def parseChars (offset : Nat) (cs : List Char) : Except PatternFault (Pattern × Nat) :=
  ((Reading.start offset).read cs).bind fun r => r.finish.map (·, r.offset)

/-- The pattern that a text denotes from a byte offset on, with the offset at which
reading stopped. The offset is that of a character, or that of the end. -/
def parseFrom (pattern : String) (offset : Nat) : Except PatternFault (Pattern × Nat) :=
  parseChars offset (afterBytes pattern.toList offset)

/-- The pattern that a text denotes. -/
def parse (pattern : String) : Except PatternFault Pattern :=
  (parseChars 0 pattern.toList).map (·.1)

end Pattern

end StringTransform
