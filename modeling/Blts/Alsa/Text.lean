import Blts.Alsa.Config
import Blts.Cli.Options

/-!
# The text of a configuration file

`cnfparser_cleanup` goes over the whole text three times, in place.  A pointer
into a buffer is the string that begins there.  The local `line` of a function and
the token it works on keep what was read last; `line` holds nothing before.
-/

namespace Blts.Alsa

/-- What ends a function early. -/
inductive CnfStop where
  | fault (f : Fault)
  /-- A buffer is read that nothing has been written to. -/
  | unset
  /-- A pointer leaves its buffer. -/
  | astray
  /-- The function returns an error. -/
  | failed
  deriving DecidableEq

/-- A pointer that is followed. -/
def deref {α : Type} : Option α → Except CnfStop α
  | some a => .ok a
  | none => .error (.fault .nullDeref)

/-! ## Lines -/

/-- `cnfparser_readline`: the length of the line at `buf`, and `line` after it.  A
line that no newline ends is not copied. -/
def cnfparserReadline (buf : List Char) (line : Option (List Char)) :
    Except CnfStop (Nat × Option (List Char)) :=
  if '\n' ∈ buf then
    let len := min (buf.takeWhile (· ≠ '\n')).length maxLineLen
    -- `line[len] = 0`
    if len < maxLineLen then .ok (len, some (buf.take len))
    else .error (.fault .outOfBounds)
  else .ok (buf.length, line)

/-- `INT_MAX + 1`. -/
def intLimit : Nat := 2147483648

/-- A line is read and looked at.  A length that is no `int` takes the pointer out of
the buffer. -/
def readLine (buf : List Char) (line : Option (List Char)) :
    Except CnfStop (Nat × List Char) := do
  let (len, line) ← cnfparserReadline buf line
  match line with
  | none => .error .unset
  | some text => if len < intLimit then .ok (len, text) else .error .astray

/-- `in_str` after a character. -/
def quoteAfter (inStr : Bool) (c : Char) : Bool :=
  if c == '"' then !inStr else inStr

/-- The first pass: tabs become spaces and carriage returns go, except in strings. -/
def removeTabs (inStr : Bool) : List Char → List Char
  | [] => []
  | c :: cs =>
      if quoteAfter inStr c then c :: removeTabs (quoteAfter inStr c) cs
      else if c == '\r' then removeTabs (quoteAfter inStr c) cs
      else if c == '\t' then ' ' :: removeTabs (quoteAfter inStr c) cs
      else c :: removeTabs (quoteAfter inStr c) cs

/-- The second pass: the spaces at the start of a line go. -/
def removeSpaces (lineStart : Bool) : List Char → List Char
  | [] => []
  | c :: cs =>
      if lineStart && c == ' ' then removeSpaces true cs
      else c :: removeSpaces (c == '\n') cs

/-- The third pass: comments and empty lines go.  Every round removes a character or
moves on by one. -/
def removeComments : Nat → List Char → Except CnfStop (List Char)
  | 0, _ => .ok []
  | fuel + 1, buf =>
      if buf = [] then .ok []
      else do
        let r ← cnfparserReadline buf none
        if r.1 = 0 then removeComments fuel (buf.drop 1)
        else if buf.head? = some '#' then removeComments fuel (buf.drop r.1)
        else
          let rest ← removeComments fuel (buf.drop (r.1 + 1))
          .ok (buf.take (r.1 + 1) ++ rest)

def cnfparserCleanup (buf : List Char) : Except CnfStop (List Char) :=
  let buf := removeSpaces true (removeTabs false buf)
  removeComments buf.length buf

/-! ## Tokens -/

/-- `CNF_TOKEN_STR` and `CNF_TOKEN_INT`. -/
inductive CnfTokenType where
  | str
  | int
  deriving DecidableEq

structure CnfToken where
  type : CnfTokenType
  value : Int
  str : List Char
  deriving DecidableEq

/-- `atoi` of a string of digits: the `long` of `strtol`, which has a largest value,
as an `int`. -/
def atoi (str : List Char) : Int :=
  Cli.toInt (min (Cli.readDigits 10 str 0) 9223372036854775807 : Nat)

/-- A token at its end: an integer gets its value. -/
def CnfToken.close (token : CnfToken) : CnfToken :=
  match token.type with
  | .int => { token with value := atoi token.str }
  | .str => token

/-- The character `c` of a token. -/
def CnfToken.push (token : CnfToken) (c : Char) : Except CnfStop CnfToken :=
  let token := if c.isDigit then token else { token with type := .str }
  if c == '"' then .ok token
  else if token.str.length < maxLineLen then .ok { token with str := token.str ++ [c] }
  else .error (.fault .outOfBounds)

/-- A token ends at `c`: a blank outside of a string, once it has started. -/
def tokenEnds (start inStr : Bool) (c : Char) : Bool :=
  start && !quoteAfter inStr c && (c == ' ' || c == '\n')

/-- A token has started when `c` has been looked at: with a quote, or outside of a
string with anything but a space. -/
def tokenStarted (start inStr : Bool) (c : Char) : Bool :=
  start || c == '"' || (!quoteAfter inStr c && c != ' ')

/-- The loop of `next_token`. -/
def scanToken (start inStr : Bool) (token : CnfToken) :
    List Char → Except CnfStop (Option (List Char) × CnfToken)
  | [] => .ok (if start then (some [], token.close) else (none, token))
  | c :: cs =>
      if tokenEnds start inStr c then .ok (some (c :: cs), token.close)
      else if tokenStarted start inStr c then do
        let token ← token.push c
        scanToken true (quoteAfter inStr c) token cs
      else scanToken false (quoteAfter inStr c) token cs

/-- `next_token`: where the token ends, if there is one. -/
def nextToken (str : Option (List Char)) (token : CnfToken) :
    Except CnfStop (Option (List Char) × CnfToken) := do
  let str ← deref str
  scanToken false false { token with type := .int, str := [] } str

end Blts.Alsa
