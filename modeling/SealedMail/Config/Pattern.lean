import SealedMail.Data.CharClass
import SealedMail.Data.Hex

/-!
# Patterns

Regular expressions as log filters hold them. `Pattern.isValid` says whether one is well formed and
within the means of its matcher, which reads UTF-8 octet by octet and has no tables of Unicode:

- the case of letters can be ignored, and `\d`, `\s`, `\w` and word edges are known, only for ASCII,
  that is after `(?-u)`; there nothing may match an octet that is no ASCII character by itself;
- `\p` is never known;
- no brace is closed, because the first closing one ends the field that holds the pattern. So no
  count follows a part, and no code stands in braces.
-/

namespace SealedMail.Pattern

/-! ## Modes -/

structure Mode where
  unicode : Bool := true
  ignoreCase : Bool := false
  /-- Blanks and comments mean nothing. -/
  spaced : Bool := false

def flags : List Char := ['i', 'm', 's', 'U', 'u', 'R', 'x']

/-- Flags to switch on and, after a minus that is not the last, flags to switch off; each stands
once. -/
def areFlags : List Char → Bool
  | [] => true
  | c :: cs => (flags.contains c || (c = '-' && !cs.isEmpty)) && !cs.contains c && areFlags cs

def Mode.set (on : Bool) (m : Mode) (flag : Char) : Mode :=
  match flag with
  | 'u' => { m with unicode := on }
  | 'i' => { m with ignoreCase := on }
  | 'x' => { m with spaced := on }
  | _ => m

def Mode.change (m : Mode) (cs : List Char) : Mode :=
  (cs.dropWhile (· ≠ '-')).foldl (Mode.set false) ((cs.takeWhile (· ≠ '-')).foldl (Mode.set true) m)

def skipSpace : (inComment : Bool) → List Char → List Char
  | _, [] => []
  | true, c :: cs => skipSpace (c ≠ '\n') cs
  | false, c :: cs =>
    if CharClass.isBlank c then skipSpace false cs
    else if c = '#' then skipSpace true cs
    else c :: cs

def Mode.skip (m : Mode) (cs : List Char) : List Char := if m.spaced then skipSpace false cs else cs

/-- The character after a minus in a set: blanks are passed, and one number sign, but no comment. -/
def Mode.peek? (m : Mode) (cs : List Char) : Option Char :=
  if m.spaced then
    match cs.dropWhile CharClass.isBlank with
    | '#' :: cs => cs.find? fun c => !CharClass.isBlank c
    | cs => cs.head?
  else cs.head?

/-! ## Atoms -/

inductive Atom where
  /-- A character by its number; `octet` when that was written as two digits. -/
  | char (code : Nat) (octet : Bool)
  /-- Digits, blanks or word characters, or all others. -/
  | shorthand (negated : Bool)
  | any
  | edge (ofWord : Bool)

/-- Whether an atom can be matched, in a set or outside of one. -/
def Mode.takes (m : Mode) (inSet : Bool) : Atom → Bool
  | .char code octet => if m.unicode then !m.ignoreCase else code < 0x80 || !(inSet || octet)
  | .shorthand negated => !m.unicode && !negated
  | .any => m.unicode
  | .edge ofWord => !inSet && !(m.unicode && ofWord)

def code? (m : Mode) : (n value : Nat) → List Char → Option (Nat × List Char)
  | 0, value, cs => if value.isValidChar then some (value, m.skip cs) else none
  | n + 1, value, cs =>
    match m.skip cs with
    | [] => none
    | c :: cs => (Hex.charValue? c).bind fun d => code? m n (16 * value + d) cs

def controls : List (Char × Nat) := [('a', 7), ('t', 9), ('n', 10), ('v', 11), ('f', 12), ('r', 13)]

/-- What a backslash and the characters after it stand for. Signs of ASCII stand for themselves. -/
def escape? (m : Mode) : List Char → Option (Atom × List Char)
  | [] => none
  | c :: cs =>
    if c = 'x' then (code? m 2 0 cs).map fun (code, rest) => (.char code true, rest)
    else if c = 'u' then (code? m 4 0 cs).map fun (code, rest) => (.char code false, rest)
    else if c = 'U' then (code? m 8 0 cs).map fun (code, rest) => (.char code false, rest)
    else if ['d', 's', 'w'].contains c then some (.shorthand false, cs)
    else if ['D', 'S', 'W'].contains c then some (.shorthand true, cs)
    else if ['b', 'B', '<', '>'].contains c then some (.edge true, cs)
    else if ['A', 'z'].contains c then some (.edge false, cs)
    else if c.isAlpha then (controls.lookup c).map fun code => (.char code false, cs)
    else if c.toNat < 0x80 && !c.isDigit then some (.char c.toNat false, cs)
    else none

def member? (m : Mode) : List Char → Option (Atom × List Char)
  | [] => none
  | '\\' :: cs => escape? m cs
  | c :: cs => some (.char c.toNat false, cs)

/-! ## Sets -/

/-- The height of things side by side: one more than theirs, unless there is one alone. -/
def join : List Nat → Nat
  | [] => 0
  | [h] => h
  | hs => hs.foldl Nat.max 0 + 1

structure Members where
  heights : List Nat := []
  left : Option Nat := none
  /-- At its start a set may hold minus signs and then one closing bracket. -/
  atStart : Bool := false

def Members.add (s : Members) (h : Nat) : Members :=
  { s with heights := h :: s.heights, atStart := false }

def Members.height (s : Members) : Nat :=
  match s.left with
  | none => join s.heights
  | some l => join [join s.heights, l]

def classNames : List String :=
  ["alnum", "alpha", "ascii", "blank", "cntrl", "digit", "graph", "lower", "print", "punct",
    "space", "upper", "word", "xdigit"]

/-- A class of ASCII by name, between colons and brackets, the first of which is read already. Says
whether it is negated. -/
def named? : List Char → Option (Bool × List Char)
  | ':' :: cs =>
    let (negated, cs) := match cs with
      | '^' :: cs => (true, cs)
      | cs => (false, cs)
    match cs.span (· ≠ ':') with
    | (name, ':' :: ']' :: rest) =>
      if classNames.contains (String.ofList name) then some (negated, rest) else none
    | _ => none
  | _ => none

/-- A member of a set or a range of them; a range ends no earlier than it starts. -/
def range? (m : Mode) (cs : List Char) : Option (List Char) := do
  let (first, rest) ← member? m cs
  let alone := if m.takes true first then some (m.skip rest) else none
  match m.skip rest with
  | '-' :: after =>
    if m.peek? after = some ']' || m.peek? after = some '-' then alone
    else
      let (last, rest) ← member? m (m.skip after)
      match first, last with
      | .char lo _, .char hi _ =>
        if lo ≤ hi && m.takes true first && m.takes true last then some rest else none
      | _, _ => none
  | _ => alone

/-- What follows the bracket that opens a set: a negated one is matched in Unicode only. -/
def opened? (m : Mode) (cs : List Char) : Option (List Char) :=
  match m.skip cs with
  | '^' :: cs => if m.unicode then some (m.skip cs) else none
  | cs => some cs

/-- The rest of a set, its height with it; `fuel` exceeds the number of characters. -/
def set? (m : Mode) : (fuel : Nat) → Members → List Char → Option (Nat × List Char)
  | 0, _, _ => none
  | fuel + 1, s, cs =>
    let literal (s : Members) (c : Char) (rest : List Char) :=
      if m.takes true (.char c.toNat false) then set? m fuel s rest else none
    match m.skip cs, s.atStart with
    | '-' :: rest, true => literal { s with heights := 0 :: s.heights } '-' rest
    | ']' :: rest, atStart =>
      if atStart && s.heights.isEmpty then literal (s.add 0) ']' rest else some (s.height, rest)
    | '[' :: rest, _ =>
      match named? rest with
      | some (negated, rest) =>
        if (if m.unicode then !m.ignoreCase else !negated) then set? m fuel (s.add 0) rest else none
      | none => do
        let (h, rest) ← set? m fuel { atStart := true } (← opened? m rest)
        set? m fuel (s.add (h + 1)) rest
    | '&' :: '&' :: rest, _ => set? m fuel { left := some s.height } rest
    | '-' :: '-' :: rest, _ => set? m fuel { left := some s.height } rest
    | '~' :: '~' :: rest, _ => set? m fuel { left := some s.height } rest
    | cs, _ => do set? m fuel (s.add 0) (← range? m cs)

/-! ## Groups -/

/-- A group that is still open, or the whole pattern. -/
structure Scope where
  mode : Mode
  /-- The parts of the current alternative by height, the latest first; a change of mode has none
  and cannot be repeated. -/
  parts : List (Option Nat) := []
  before : List Nat := []

def Scope.add (s : Scope) (h : Nat) : Scope := { s with parts := some h :: s.parts }

def Scope.alternatives (s : Scope) : List Nat := join (s.parts.map (·.getD 0)) :: s.before

def Scope.height (s : Scope) : Nat := join s.alternatives

structure State where
  scope : Scope
  outer : List Scope := []
  names : List (List Char) := []

def State.add (s : State) (h : Nat) : State := { s with scope := s.scope.add h }

def State.enter (s : State) (m : Mode) : State :=
  { s with scope := { mode := m }, outer := s.scope :: s.outer }

/-- A name starts with a letter or underscore, and goes on with numbers, points and brackets too. -/
def isName : List Char → Bool
  | [] => false
  | c :: cs =>
    (c = '_' || CharClass.isLetter c) &&
      cs.all fun c =>
        ['_', '.', '[', ']'].contains c || CharClass.isLetter c || CharClass.isNumber c

def State.enterNamed? (s : State) (cs : List Char) : Option (State × List Char) :=
  match cs.span (· ≠ '>') with
  | (name, '>' :: rest) =>
    if isName name && !s.names.contains name then
      some ({ s.enter s.scope.mode with names := name :: s.names }, rest)
    else none
  | _ => none

/-- A change of mode, for a group of its own after a colon and else for the rest of this one. -/
def State.change? (s : State) (cs : List Char) : Option (State × List Char) :=
  let flags := cs.takeWhile fun c => c ≠ ':' && c ≠ ')'
  let m := s.scope.mode.change flags
  if !areFlags flags then none
  else
    match cs.drop flags.length with
    | ':' :: rest => some (s.enter m, rest)
    | ')' :: rest =>
      if flags.isEmpty then none
      else
        some ({ s with scope := { s.scope with mode := m, parts := none :: s.scope.parts } }, rest)
    | _ => none

def State.repeat? (s : State) : Option State :=
  match s.scope.parts with
  | some h :: parts => some { s with scope := { s.scope with parts := some (h + 1) :: parts } }
  | _ => none

def State.close? (s : State) : Option State :=
  match s.outer with
  | [] => none
  | around :: outer => some { s with scope := around.add (s.scope.height + 1), outer := outer }

def State.atom? (s : State) (a : Atom) : Option State :=
  if s.scope.mode.takes false a then some (s.add 0) else none

/-- Reads what starts with `c`, a character that is not skipped, and goes on in `cs`. -/
def State.step? (s : State) (c : Char) (cs : List Char) : Option (State × List Char) :=
  match c with
  | '(' =>
    match s.scope.mode.skip cs with
    | '?' :: 'P' :: '<' :: rest => s.enterNamed? rest
    | '?' :: '<' :: rest => s.enterNamed? rest
    | '?' :: rest => s.change? rest
    | rest => some (s.enter s.scope.mode, rest)
  | ')' => s.close?.map (·, cs)
  | '|' =>
    some ({ s with scope := { s.scope with parts := [], before := s.scope.alternatives } }, cs)
  | '[' => do
    let rest ← opened? s.scope.mode cs
    let (h, rest) ← set? s.scope.mode (rest.length + 1) { atStart := true } rest
    some (s.add (h + 1), rest)
  | '*' | '+' | '?' => s.repeat?.map fun s =>
    match cs with
    | '?' :: rest => (s, rest)
    | _ => (s, cs)
  | '\x7b' => none
  | '\\' => do
    let (a, rest) ← escape? s.scope.mode cs
    (s.atom? a).map (·, rest)
  | '.' => (s.atom? .any).map (·, cs)
  | '^' | '$' => (s.atom? (.edge false)).map (·, cs)
  | c => (s.atom? (.char c.toNat false)).map (·, cs)

/-- The state at the end of a pattern; `fuel` exceeds the number of characters. -/
def State.run? : (fuel : Nat) → State → List Char → Option State
  | 0, _, _ => none
  | fuel + 1, s, cs =>
    match s.scope.mode.skip cs with
    | [] => some s
    | c :: cs => (s.step? c cs).bind fun (s, rest) => run? fuel s rest

def heightLimit : Nat := 250

def isValid (cs : List Char) : Bool :=
  match State.run? (cs.length + 1) { scope := { mode := {} } } cs with
  | some s => s.outer.isEmpty && s.scope.height ≤ heightLimit
  | none => false

end SealedMail.Pattern
