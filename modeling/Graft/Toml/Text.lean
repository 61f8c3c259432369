import Graft.Toml.Reader

/-! # Blanks, comments and strings of TOML -/
namespace Graft.Toml.Reader

/-- Whether a character may stand in a comment or a string without an escape. -/
def isPlain (c : Char) : Bool :=
  c = '\t' || 0x20 ≤ c.toNat && c.toNat ≠ 0x7F

def isSpace (c : Char) : Bool :=
  c = ' ' || c = '\t'

def spaces : Reader Unit := do
  let _ ← run isSpace

/-- A newline, or a carriage return and a newline. -/
def newline? : Reader (Option (List Char))
  | '\n' :: rest => some (some ['\n'], rest)
  | '\r' :: '\n' :: rest => some (some ['\r', '\n'], rest)
  | text => some (none, text)

/-- Spaces and then a comment, if there is one. -/
def trailing : Reader Unit := do
  spaces
  if ← optional "#" then
    let _ ← run isPlain

/-- Spaces, comments and newlines. -/
def gap : Reader Unit := do
  let _ ← collect do
    trailing
    return (← newline?).map fun _ => ()

/-- The value of hexadecimal digits. -/
def ofHex (digits : List Char) : Nat :=
  digits.foldl (fun n d => 16 * n + digitValue d) 0
where
  digitValue (d : Char) : Nat :=
    if d.isDigit then d.toNat - '0'.toNat else d.toLower.toNat - 'a'.toNat + 10

def isHexDigit (c : Char) : Bool :=
  c.isDigit || ('a' ≤ c.toLower && c.toLower ≤ 'f')

/-- The character with the code point that `n` hexadecimal digits give. -/
def codePoint (n : Nat) : Reader Char := do
  let digits ← exactly n isHexDigit
  let code := ofHex digits
  if h : code.isValidChar then return Char.ofNatAux code h else failure

/-- The character that an escape stands for, behind its backslash. -/
def escaped : Reader Char := do
  match ← anyChar with
  | 'b' => return '\x08'
  | 't' => return '\t'
  | 'n' => return '\n'
  | 'f' => return '\x0c'
  | 'r' => return '\r'
  | 'e' => return '\x1b'
  | '"' => return '"'
  | '\\' => return '\\'
  | 'x' => codePoint 2
  | 'u' => codePoint 4
  | 'U' => codePoint 8
  | _ => failure

/-- A string on one line, behind its opening quote. -/
def basicString : Reader String := do
  let chars ← collect do
    match ← anyChar with
    | '"' => return none
    | '\\' => return some (← escaped)
    | c => if isPlain c then return some c else failure
  return .ofList chars

/-- A string without escapes on one line, behind its opening quote. -/
def literalString : Reader String := do
  let chars ← collect do
    match ← anyChar with
    | '\'' => return none
    | c => if isPlain c then return some c else failure
  return .ofList chars

/-- The number of quotes that come next. -/
def quoteRun (quote : Char) : Reader Nat := fun text =>
  some ((text.takeWhile (· = quote)).length, text)

/-- A piece of a string over several lines that starts with a quote: fewer than three quotes
stand for themselves, and of more than three the first ones, at most two, belong to the
text. -/
def quotesOrEnd (quote : Char) : Reader (List Char × Bool) := do
  let n ← quoteRun quote
  if n < 3 then
    let _ ← exactly n (· = quote)
    return (List.replicate n quote, false)
  else
    let kept := min (n - 3) 2
    let _ ← exactly (kept + 3) (· = quote)
    return (List.replicate kept quote, true)

/-- Spaces and newlines. -/
def blankLines : Reader Unit := do
  let _ ← collect do
    spaces
    newline?

/-- A backslash at the end of a line takes the spaces and newlines behind it away. -/
def foldedLine? : Reader Bool := fun text =>
  match newline? (text.dropWhile isSpace) with
  | some (some _, rest) => (blankLines rest).map fun (_, rest) => (true, rest)
  | _ => some (false, text)

/-- The pieces of a string over several lines, through its closing quotes. -/
def multiline (quote : Char) (escapes : Bool) : Nat → Reader (List Char)
  | 0 => failure
  | fuel + 1 => do
    match ← peek? with
    | none => failure
    | some c =>
      if c = quote then
        let (kept, done) ← quotesOrEnd quote
        if done then return kept
        return kept ++ (← multiline quote escapes fuel)
      else
        match ← newline? with
        | some newline => return newline ++ (← multiline quote escapes fuel)
        | none =>
          let c ← anyChar
          if escapes && c = '\\' then
            if ← foldedLine? then multiline quote escapes fuel
            else
              let c ← escaped
              return c :: (← multiline quote escapes fuel)
          else if isPlain c then return c :: (← multiline quote escapes fuel)
          else failure

/-- A string over several lines, behind its opening quotes; a newline right there is not
part of it. -/
def multilineString (quote : Char) (escapes : Bool) : Reader String := do
  let _ ← newline?
  let text ← get
  return .ofList (← multiline quote escapes (text.length + 1))

/-- A string that stands next, in one of its four forms. -/
def string? : Reader (Option String) := do
  if ← optional "\"\"\"" then return some (← multilineString '"' true)
  if ← optional "'''" then return some (← multilineString '\'' false)
  if ← optional "\"" then return some (← basicString)
  if ← optional "'" then return some (← literalString)
  return none

def isBareKeyChar (c : Char) : Bool :=
  c.isAlphanum || c = '_' || c = '-'

/-- One part of a key: bare, or a string on one line. -/
def keyPart : Reader String := do
  if ← optional "\"" then basicString
  else if ← optional "'" then literalString
  else
    let chars ← run isBareKeyChar
    if chars.isEmpty then failure else return .ofList chars

/-- A key: its parts are joined by dots. -/
def key : Reader (List String) := do
  let first ← keyPart
  let rest ← collect do
    spaces
    if ← optional "." then
      spaces
      return some (← keyPart)
    else
      return none
  return first :: rest

end Graft.Toml.Reader
