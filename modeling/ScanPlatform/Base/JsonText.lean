import ScanPlatform.Base.PyText

/-!
# JSON texts

`json.loads` as the interpreter computes it. A text is cut into tokens from left to right, and the
tokens are put together on a stack; the first fault counts. An unpaired surrogate in an escape,
which no character is, is read as U+FFFD.

* `Doc`, `Doc.truthy`, `Doc.get`: what a text is read as, and how a program looks at it;
* `Token`, `tokens`: the tokens of a text;
* `State`, `feed`: the stack, and what a token does to it;
* `loads`: the reading of a text, and how it fails.
-/

set_option autoImplicit false

namespace JsonText

/-! ## Values -/

/-- A JSON value, with integers and floats apart. In an object the last member of a name counts. -/
inductive Doc (F : Type) where
  | null
  | bool (b : Bool)
  | int (n : ℤ)
  | float (x : F)
  | str (s : String)
  | list (xs : List (Doc F))
  | dict (ms : List (String × Doc F))

abbrev Members (F : Type) := List (String × Doc F)

variable {F : Type}

/-- `bool(v)`. -/
def Doc.truthy (py : Python F) : Doc F → Bool
  | .null => false
  | .bool b => b
  | .int n => n ≠ 0
  | .float x => py.floatTruthy x
  | .str s => s ≠ ""
  | .list xs => !xs.isEmpty
  | .dict ms => !ms.isEmpty

/-- `v or w`. -/
def Doc.or (py : Python F) (v w : Doc F) : Doc F := if v.truthy py then v else w

/-- `d.get(k)`. -/
def Members.get (ms : Members F) (k : String) : Doc F := (ms.reverse.lookup k).getD .null

/-- `v if isinstance(v, dict) else {}`. -/
def Doc.members : Doc F → Members F
  | .dict ms => ms
  | .null | .bool _ | .int _ | .float _ | .str _ | .list _ => []

/-- `v if isinstance(v, str) else ""`. -/
def Doc.text : Doc F → String
  | .str s => s
  | .null | .bool _ | .int _ | .float _ | .list _ | .dict _ => ""

/-! ## Tokens -/

inductive Token where
  | openList
  | closeList
  | openDict
  | closeDict
  | colon
  | comma
  | str (s : String)
  /-- An integer numeral. -/
  | int (negative : Bool) (digits : List Char)
  /-- A numeral with a fraction or an exponent. -/
  | float (numeral : List Char)
  /-- `true`, `false`, `null`, `NaN`, `Infinity` or `-Infinity`. -/
  | word (w : List Char)
  | bad

def isBlank (c : Char) : Bool := c ∈ [' ', '\t', '\n', '\r']

def isNumberChar (c : Char) : Bool := c.isDigit || c ∈ ['+', '-', '.', 'e', 'E']

def words : List String := ["true", "false", "null", "NaN", "Infinity", "-Infinity"]

/-- The fraction of a numeral, and what follows it. -/
def fraction : List Char → List Char × List Char
  | '.' :: cs =>
    if (cs.takeWhile Char.isDigit).isEmpty then ([], '.' :: cs)
    else ('.' :: cs.takeWhile Char.isDigit, cs.dropWhile Char.isDigit)
  | cs => ([], cs)

/-- The exponent of a numeral, and what follows it. -/
def exponent (s : List Char) : List Char × List Char :=
  match s with
  | e :: cs =>
    if e = 'e' ∨ e = 'E' then
      let (sign, ds) := match cs with
        | '+' :: ds => (['+'], ds)
        | '-' :: ds => (['-'], ds)
        | ds => ([], ds)
      if (ds.takeWhile Char.isDigit).isEmpty then ([], s)
      else (e :: sign ++ ds.takeWhile Char.isDigit, ds.dropWhile Char.isDigit)
    else ([], s)
  | [] => ([], [])

/-- `_match_number`, on a run of characters that numerals are made of; what follows the numeral in
the run is no token. -/
def numberTokens (run : List Char) : List Token :=
  let (negative, s) := match run with
    | '-' :: cs => (true, cs)
    | cs => (false, cs)
  let (digits, s) := match s with
    | '0' :: cs => (['0'], cs)
    | cs => (cs.takeWhile Char.isDigit, cs.dropWhile Char.isDigit)
  if digits.isEmpty then [.bad]
  else
    let (frac, s) := fraction s
    let (exp, s) := exponent s
    let token := if frac.isEmpty ∧ exp.isEmpty then .int negative digits
      else .float ((if negative then ['-'] else []) ++ digits ++ frac ++ exp)
    if s.isEmpty then [token] else [token, .bad]

def wordTokens (run : List Char) : List Token :=
  if String.ofList run ∈ words then [.word run] else [.bad]

def isHighSurrogate (n : ℕ) : Bool := 0xd800 ≤ n ∧ n ≤ 0xdbff

def isLowSurrogate (n : ℕ) : Bool := 0xdc00 ≤ n ∧ n ≤ 0xdfff

/-- The characters of a string, of which pairs of surrogates have been escaped one by one. -/
def joinSurrogates : List ℕ → List Char
  | [] => []
  | [n] => [if isHighSurrogate n || isLowSurrogate n then '\ufffd' else Char.ofNat n]
  | n :: m :: ns =>
    if isHighSurrogate n && isLowSurrogate m then
      Char.ofNat (0x10000 + (n - 0xd800) * 0x400 + (m - 0xdc00)) :: joinSurrogates ns
    else
      (if isHighSurrogate n || isLowSurrogate n then '\ufffd' else Char.ofNat n) ::
        joinSurrogates (m :: ns)

/-- What an escape other than `\u` stands for. -/
def escaped : Char → Option Char
  | '"' => some '"'
  | '\\' => some '\\'
  | '/' => some '/'
  | 'b' => some '\x08'
  | 'f' => some '\x0c'
  | 'n' => some '\n'
  | 'r' => some '\r'
  | 't' => some '\t'
  | _ => none

/-- Where the scanner is in the text; what has been read is in reverse. -/
inductive Mode where
  | between
  | string (units : List ℕ)
  | escape (units : List ℕ)
  /-- In `\u`: so many digits, with this value. -/
  | unicode (units : List ℕ) (count value : ℕ)
  | number (run : List Char)
  | word (run : List Char)
  | failed

/-- A character between two tokens. -/
def Mode.start (c : Char) : List Token × Mode :=
  if isBlank c then ([], .between)
  else match c with
  | '[' => ([.openList], .between)
  | ']' => ([.closeList], .between)
  | '{' => ([.openDict], .between)
  | '}' => ([.closeDict], .between)
  | ':' => ([.colon], .between)
  | ',' => ([.comma], .between)
  | '"' => ([], .string [])
  | c =>
    if c = '-' ∨ c.isDigit then ([], .number [c])
    else if c.isAlpha then ([], .word [c])
    else ([.bad], .failed)

/-- One character. -/
def Mode.step : Mode → Char → List Token × Mode
  | .between, c => Mode.start c
  | .string units, c =>
    if c = '"' then ([.str (String.ofList (joinSurrogates units.reverse))], .between)
    else if c = '\\' then ([], .escape units)
    else if c.toNat < 0x20 then ([.bad], .failed)
    else ([], .string (c.toNat :: units))
  | .escape units, c =>
    if c = 'u' then ([], .unicode units 0 0)
    else match escaped c with
    | some d => ([], .string (d.toNat :: units))
    | none => ([.bad], .failed)
  | .unicode units count value, c =>
    match PyStr.hexDigit c with
    | some d =>
      if count = 3 then ([], .string ((16 * value + d) :: units))
      else ([], .unicode units (count + 1) (16 * value + d))
    | none => ([.bad], .failed)
  | .number run, c =>
    if run = ['-'] ∧ c = 'I' then ([], .word ['I', '-'])
    else if isNumberChar c then ([], .number (c :: run))
    else ((numberTokens run.reverse ++ (Mode.start c).1), (Mode.start c).2)
  | .word run, c =>
    if c.isAlphanum then ([], .word (c :: run))
    else ((wordTokens run.reverse ++ (Mode.start c).1), (Mode.start c).2)
  | .failed, _ => ([], .failed)

/-- The end of the text. -/
def Mode.finish : Mode → List Token
  | .between | .failed => []
  | .string _ | .escape _ | .unicode _ _ _ => [.bad]
  | .number run => numberTokens run.reverse
  | .word run => wordTokens run.reverse

def tokensFrom (mode : Mode) : List Char → List Token
  | [] => mode.finish
  | c :: cs => (mode.step c).1 ++ tokensFrom (mode.step c).2 cs

def tokens (s : List Char) : List Token := tokensFrom .between s

/-! ## Documents -/

/-- How `json.loads` fails. -/
inductive Fault where
  /-- `JSONDecodeError`. -/
  | decodeError
  /-- The `ValueError` of `int()`. -/
  | valueError
  /-- `RecursionError`. -/
  | recursionError
  deriving DecidableEq

/-- An array or an object that has begun; the last name of an object is that of the member which is
being read. -/
inductive Frame (F : Type) where
  | list (xs : List (Doc F))
  | dict (ms : Members F) (name : String)

/-- What the reader expects next. -/
inductive Expected (F : Type) where
  | value
  /-- A value, or the end of the array. -/
  | first
  | name
  /-- A name, or the end of the object. -/
  | firstName
  | colon
  /-- A comma, or the end of the array or object. -/
  | next
  | nothing (v : Doc F)

structure State (F : Type) where
  frames : List (Frame F)
  expected : Expected F

/-- A value has been read. -/
def State.complete (v : Doc F) : List (Frame F) → State F
  | [] => ⟨[], .nothing v⟩
  | .list xs :: fs => ⟨.list (xs ++ [v]) :: fs, .next⟩
  | .dict ms name :: fs => ⟨.dict (ms ++ [(name, v)]) name :: fs, .next⟩

/-- An array or an object begins. -/
def State.enter (py : Python F) (frame : Frame F) (expected : Expected F)
    (frames : List (Frame F)) : Except Fault (State F) :=
  if frames.length < py.maxNesting then .ok ⟨frame :: frames, expected⟩
  else .error .recursionError

/-- The value of a scalar. -/
def scalar (py : Python F) : Token → Except Fault (Doc F)
  | .str s => .ok (.str s)
  | .int negative digits =>
    if digits.length ≤ py.intMaxStrDigits then
      let n := digits.foldl (fun n c => 10 * n + (c.toNat - '0'.toNat)) 0
      .ok (.int (if negative then -n else n))
    else .error .valueError
  | .float numeral => .ok (.float (py.floatOfNumeral numeral))
  | .word w =>
    .ok (match String.ofList w with
      | "true" => .bool true
      | "false" => .bool false
      | "null" => .null
      | _ => .float (py.floatOfNumeral w))
  | .openList | .closeList | .openDict | .closeDict | .colon | .comma | .bad =>
    .error .decodeError

/-- A token where a value is expected. -/
def State.value (py : Python F) (frames : List (Frame F)) : Token → Except Fault (State F)
  | .openList => State.enter py (.list []) .first frames
  | .openDict => State.enter py (.dict [] "") .firstName frames
  | token => (scalar py token).map fun v => State.complete v frames

/-- One token. -/
def feed (py : Python F) (s : State F) (token : Token) : Except Fault (State F) :=
  match s.expected, token, s.frames with
  | .value, token, frames => State.value py frames token
  | .first, .closeList, .list xs :: fs => .ok (State.complete (.list xs) fs)
  | .first, token, frames => State.value py frames token
  | .firstName, .closeDict, .dict ms _ :: fs => .ok (State.complete (.dict ms) fs)
  | .firstName, .str name, .dict ms _ :: fs => .ok ⟨.dict ms name :: fs, .colon⟩
  | .name, .str name, .dict ms _ :: fs => .ok ⟨.dict ms name :: fs, .colon⟩
  | .colon, .colon, frames => .ok ⟨frames, .value⟩
  | .next, .comma, .list xs :: fs => .ok ⟨.list xs :: fs, .value⟩
  | .next, .closeList, .list xs :: fs => .ok (State.complete (.list xs) fs)
  | .next, .comma, .dict ms name :: fs => .ok ⟨.dict ms name :: fs, .name⟩
  | .next, .closeDict, .dict ms _ :: fs => .ok (State.complete (.dict ms) fs)
  | _, _, _ => .error .decodeError

/-- `json.loads`. -/
def loads (py : Python F) (text : List Char) : Except Fault (Doc F) := do
  let s ← (tokens text).foldlM (feed py) ⟨[], .value⟩
  match s.expected with
  | .nothing v => .ok v
  | .value | .first | .name | .firstName | .colon | .next => .error .decodeError

end JsonText
