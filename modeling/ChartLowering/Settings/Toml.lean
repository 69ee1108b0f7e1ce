import ChartLowering.Json.Reader
import ChartLowering.Settings.Moment

/-
  Configuration files in TOML.

  A document is read line by line into nested tables. Keys may be dotted; a key or a table that is
  defined twice, a line that is no assignment and an unfinished value make the whole document
  unreadable. Inline values are closed: nothing can be added to them later. Values of every kind are
  read, dates and times and strings of several lines among them.
-/

namespace ChartLowering.Toml

/-- A value of a configuration file. A moment is a date, a time or both, as it is written. -/
inductive Value where
  | bool (b : Bool)
  | num (n : Number)
  | str (s : String)
  | moment (text : String)
  | arr (items : List Value)
  | table (fields : List (String × Value))
deriving Repr, Inhabited

/-- The entries of a table, in the order in which they were written. -/
abbrev Entries := List (String × Value)

/-- Values by name. -/
abbrev Table := OrderedMap String Value

namespace Value

/-- Whether there is anything in a value: a zero, an empty text, list or table and false are
empty. -/
def isSubstantial : Value → Bool
  | .bool b => b
  | .num n => !n.isZero
  | .str s => !s.isEmpty
  | .moment _ => true
  | .arr items => !items.isEmpty
  | .table fields => !fields.isEmpty

/-- Lists and tables hold other values. -/
def isContainer : Value → Bool
  | .arr _ | .table _ => true
  | _ => false

end Value

/-- A key: the names from the outermost table inwards. -/
abbrev Path := List String

/-- Whether a path lies at or below one of those that nothing can be added to. -/
def isClosed (closed : List Path) (path : Path) : Bool := closed.any (·.isPrefixOf path)

/-- What has been read so far, and which tables may no longer be declared or extended. -/
structure Document where
  root : Table
  declared : List Path
  pending : List Path
  closed : List Path

def Document.empty : Document := ⟨.empty, [], [], []⟩

/-! ## Tokens -/

def isGap (c : Char) : Bool := c == ' ' || c == '\t'

def skipGaps (cs : List Char) : List Char := cs.dropWhile isGap

/-- Gaps and line ends. -/
def isBlank (c : Char) : Bool := isGap c || c == '\n'

/-- Controls other than the tab may stand nowhere, but for line ends between lines. -/
def isControl (c : Char) : Bool := (c.toNat < 0x20 && c != '\t') || c.toNat == 0x7f

/-- The text after a comment, if a comment starts here. -/
def skipComment? : List Char → Option (List Char)
  | '#' :: rest =>
    let comment := rest.takeWhile (· != '\n')
    if comment.any isControl then none else some (rest.dropWhile (· != '\n'))
  | cs => some cs

/-- The text after gaps, line ends and comments. -/
def skipLines? : Nat → List Char → Option (List Char)
  | 0, cs => some cs
  | fuel + 1, cs =>
    match skipGaps cs with
    | '\n' :: rest => skipLines? fuel rest
    | '#' :: rest => (skipComment? ('#' :: rest)).bind (skipLines? fuel)
    | cs => some cs

/-- The rest after the end of a line. -/
def endLine? (cs : List Char) : Option (List Char) := do
  match ← skipComment? (skipGaps cs) with
  | [] => some []
  | '\n' :: rest => some rest
  | _ => none

/-- The character with a code point in hexadecimal digits. -/
def charOfHex? (ds : List Char) : Option Char := do
  let n ← ds.foldlM (fun n c => (Json.hexValue? c).map (16 * n + ·)) 0
  if n < 0xd800 ∨ (0xdfff < n ∧ n < 0x110000) then some (Char.ofNat n) else none

/-- The character that an escape stands for, and the rest. -/
def escape? : List Char → Option (Char × List Char)
  | 'b' :: rest => some ('\x08', rest)
  | 't' :: rest => some ('\t', rest)
  | 'n' :: rest => some ('\n', rest)
  | 'f' :: rest => some ('\x0c', rest)
  | 'r' :: rest => some ('\r', rest)
  | '"' :: rest => some ('"', rest)
  | '\\' :: rest => some ('\\', rest)
  | 'u' :: rest =>
    if rest.length < 4 then none else (charOfHex? (rest.take 4)).map (·, rest.drop 4)
  | 'U' :: rest =>
    if rest.length < 8 then none else (charOfHex? (rest.take 8)).map (·, rest.drop 8)
  | _ => none

/-- A string with escapes, after its opening quote; newest character first in `done`. -/
def readBasic (fuel : Nat) (done : List Char) (cs : List Char) : Option (String × List Char) :=
  match fuel, cs with
  | 0, _ => none
  | _, [] => none
  | _, '"' :: rest => some (String.ofList done.reverse, rest)
  | fuel + 1, '\\' :: rest => (escape? rest).bind fun r => readBasic fuel (r.1 :: done) r.2
  | fuel + 1, c :: rest => if isControl c then none else readBasic fuel (c :: done) rest

/-- A string without escapes, after its opening quote. -/
def readLiteral (cs : List Char) : Option (String × List Char) :=
  let body := cs.takeWhile (· != '\'')
  match cs.dropWhile (· != '\'') with
  | _ :: rest => if body.any isControl then none else some (String.ofList body, rest)
  | [] => none

/-- The text after a backslash that ends a line: the blanks up to the next character are left out.
Only a line that ends there may go on so. -/
def continueLine? (cs : List Char) : Option (List Char) :=
  match skipGaps cs with
  | '\n' :: rest => some (rest.dropWhile isBlank)
  | _ => none

/-- A string of several lines whose closing quotes were just read: up to two more quotes before the
text goes on belong to it. -/
def closeLines (quote : Char) (done rest : List Char) : String × List Char :=
  let quotes := (rest.take 2).takeWhile (· == quote)
  (String.ofList (done.reverse ++ quotes), rest.drop quotes.length)

/-- A string of several lines with escapes, after its opening quotes and the line end that may follow
them. -/
def readBasicLines (fuel : Nat) (done : List Char) (cs : List Char) : Option (String × List Char) :=
  match fuel, cs with
  | 0, _ => none
  | _, [] => none
  | _, '"' :: '"' :: '"' :: rest => some (closeLines '"' done rest)
  | fuel + 1, '\\' :: rest =>
    if rest.head?.any isBlank then (continueLine? rest).bind (readBasicLines fuel done)
    else (escape? rest).bind fun r => readBasicLines fuel (r.1 :: done) r.2
  | fuel + 1, c :: rest =>
    if isControl c && c != '\n' then none else readBasicLines fuel (c :: done) rest

/-- A string of several lines without escapes, after its opening quotes and the line end that may
follow them. -/
def readLiteralLines (done : List Char) : List Char → Option (String × List Char)
  | [] => none
  | '\'' :: '\'' :: '\'' :: rest => some (closeLines '\'' done rest)
  | c :: rest => if isControl c && c != '\n' then none else readLiteralLines (c :: done) rest

/-- The text after a line end, if one stands in front. -/
def skipLineEnd : List Char → List Char
  | '\n' :: rest => rest
  | cs => cs

def isBareKeyChar (c : Char) : Bool := c.isAlphanum || c == '_' || c == '-'

/-- One name of a key. -/
def readName (cs : List Char) : Option (String × List Char) :=
  match cs with
  | '"' :: rest => readBasic rest.length [] rest
  | '\'' :: rest => readLiteral rest
  | cs =>
    let name := cs.takeWhile isBareKeyChar
    if name.isEmpty then none else some (String.ofList name, cs.dropWhile isBareKeyChar)

/-- A dotted key. -/
def readKey : Nat → List Char → Option (Path × List Char)
  | 0, _ => none
  | fuel + 1, cs => do
    let (name, rest) ← readName (skipGaps cs)
    match skipGaps rest with
    | '.' :: rest => (readKey fuel rest).map fun r => (name :: r.1, r.2)
    | rest => some ([name], rest)

/-! ## Values -/

def isValueChar (c : Char) : Bool :=
  c.isAlphanum || c == '_' || c == '+' || c == '-' || c == '.' || c == ':'

/-- The word at the front of a text, and the rest. A date and a time with one blank between them are
one word. -/
def splitWord (cs : List Char) : List Char × List Char :=
  let word := cs.takeWhile isValueChar
  match cs.dropWhile isValueChar with
  | ' ' :: rest =>
    let next := rest.takeWhile isValueChar
    if isDate word && isTimeWithOffset next then
      (word ++ ' ' :: next, rest.dropWhile isValueChar)
    else (word, ' ' :: rest)
  | rest => (word, rest)

/-- Digits of a base with underscores between digits. -/
def digitsOf? (isDigit : Char → Bool) (cs : List Char) : Option (List Char) :=
  match cs with
  | [] => none
  | _ =>
    if cs.head? = some '_' ∨ cs.getLast? = some '_' then none
    else
      let doubled := (cs.zip (cs.drop 1)).any fun p => p.1 == '_' && p.2 == '_'
      let ds := cs.filter (· != '_')
      if doubled || !ds.all isDigit then none else some ds

/-- A whole number in a base that is named by a letter after a zero. -/
def basedInt? (cs : List Char) : Option Int :=
  let based (base : Nat) (rest : List Char) : Option Int :=
    let isDigit (c : Char) : Bool := match Json.hexValue? c with
      | some n => n < base
      | none => false
    (digitsOf? isDigit rest).map fun ds =>
      (ds.foldl (fun n c => base * n + (Json.hexValue? c).getD 0) 0 : Nat)
  match cs with
  | '0' :: 'x' :: rest => based 16 rest
  | '0' :: 'o' :: rest => based 8 rest
  | '0' :: 'b' :: rest => based 2 rest
  | _ => none

/-- Digits of a whole part: no zero before another digit. -/
def wholeDigits? (cs : List Char) : Option (List Char) :=
  (digitsOf? Char.isDigit cs).filter fun ds => ds.length == 1 || ds.head? != some '0'

/-- A decimal number: whole, with a fraction, with an exponent, or both. -/
def decimal? (cs : List Char) : Option Number := do
  let (negative, rest) := Binary64.splitSign cs
  let isMark (c : Char) : Bool := c == '.' || c == 'e' || c == 'E'
  let whole ← wholeDigits? (rest.takeWhile fun c => !isMark c)
  match rest.dropWhile fun c => !isMark c with
  | [] =>
    let n : Int := Binary64.natOfDigits whole
    some (.int (if negative then -n else n))
  | '.' :: rest =>
    let isE (c : Char) : Bool := c == 'e' || c == 'E'
    let fraction ← digitsOf? Char.isDigit (rest.takeWhile fun c => !isE c)
    let exponent ← exponent? (rest.dropWhile fun c => !isE c)
    some (.float (.ofDecimal negative (Binary64.natOfDigits (whole ++ fraction))
      (exponent - fraction.length)))
  | rest =>
    let exponent ← exponent? rest
    some (.float (.ofDecimal negative (Binary64.natOfDigits whole) exponent))
where
  exponent? : List Char → Option Int
    | [] => some 0
    | _ :: rest =>
      let (negative, ds) := Binary64.splitSign rest
      (digitsOf? Char.isDigit ds).map fun ds =>
        let n : Int := Binary64.natOfDigits ds
        if negative then -n else n

/-- A truth value, a word for infinity or not-a-number, a date or a time, or a number. -/
def word? (cs : List Char) : Option Value :=
  let (negative, rest) := Binary64.splitSign cs
  if cs = ['t', 'r', 'u', 'e'] then some (.bool true)
  else if cs = ['f', 'a', 'l', 's', 'e'] then some (.bool false)
  else if rest = ['i', 'n', 'f'] then some (.num (.float (.infinity negative)))
  else if rest = ['n', 'a', 'n'] then some (.num (.float (.nan 0)))
  else if isMoment cs then some (.moment (String.ofList cs))
  else match basedInt? cs with
    | some n => some (.num (.int n))
    | none => (decimal? cs).map .num

/-- Changes the table that the last name of a key stands in; tables on the way are made as needed. The
last table of an array stands for the array. -/
def change (last : String → Entries → Option Entries) : Path → Entries → Option Entries
  | [], _ => none
  | [k], fs => last k fs
  | k :: rest, fs =>
    match OrderedMap.find? k fs with
    | none => (change last rest []).map fun t => OrderedMap.put k (.table t) fs
    | some (.table t) => (change last rest t).map fun t => OrderedMap.put k (.table t) fs
    | some (.arr items) => match items.reverse with
      | .table t :: earlier => (change last rest t).map fun t =>
          OrderedMap.put k (.arr (.table t :: earlier).reverse) fs
      | _ => none
    | some _ => none

/-- Puts a value under a new key. -/
def putNew (v : Value) : Path → Entries → Option Entries :=
  change fun k fs => if (OrderedMap.find? k fs).isSome then none else some (OrderedMap.put k v fs)

mutual

/-- The value at the front of the text. -/
def readValue (fuel : Nat) (cs : List Char) : Option (Value × List Char) :=
  match fuel with
  | 0 => none
  | fuel + 1 =>
    match cs with
    | '"' :: '"' :: '"' :: rest =>
      (readBasicLines rest.length [] (skipLineEnd rest)).map fun r => (.str r.1, r.2)
    | '"' :: rest => (readBasic rest.length [] rest).map fun r => (.str r.1, r.2)
    | '\'' :: '\'' :: '\'' :: rest =>
      (readLiteralLines [] (skipLineEnd rest)).map fun r => (.str r.1, r.2)
    | '\'' :: rest => (readLiteral rest).map fun r => (.str r.1, r.2)
    | '[' :: rest => (readItems fuel rest).map fun r => (.arr r.1, r.2)
    | '\x7b' :: rest =>
      match skipGaps rest with
      | '\x7d' :: rest => some (.table [], rest)
      | rest => (readInline fuel [] [] rest).map fun r => (.table r.1, r.2)
    | cs => let (word, rest) := splitWord cs
      (word? word).map (·, rest)

/-- The items of an array up to its closing bracket; a last comma may follow them. -/
def readItems (fuel : Nat) (cs : List Char) : Option (List Value × List Char) :=
  match fuel with
  | 0 => none
  | fuel + 1 => do
    match ← skipLines? cs.length cs with
    | ']' :: rest => some ([], rest)
    | cs =>
      let (v, rest) ← readValue fuel cs
      match ← skipLines? rest.length rest with
      | ']' :: rest => some ([v], rest)
      | ',' :: rest =>
        let (vs, rest) ← readItems fuel rest
        some (v :: vs, rest)
      | _ => none

/-- The fields of an inline table up to its closing brace. -/
def readInline (fuel : Nat) (closed : List Path) (done : Entries) (cs : List Char) :
    Option (Entries × List Char) :=
  match fuel with
  | 0 => none
  | fuel + 1 => do
    let (path, rest) ← readKey cs.length cs
    match skipGaps rest with
    | '=' :: rest =>
      let (v, rest) ← readValue fuel (skipGaps rest)
      let done ← if isClosed closed path then none else putNew v path done
      match skipGaps rest with
      | '\x7d' :: rest => some (done, rest)
      | ',' :: rest => readInline fuel (if v.isContainer then path :: closed else closed) done rest
      | _ => none
    | _ => none

end

/-! ## Documents -/

def Document.isClosed (d : Document) (path : Path) : Bool := Toml.isClosed d.closed path

/-- Makes a table unless it is there, or an array that ends in one. -/
def makeTable : Path → Entries → Option Entries :=
  change fun k fs =>
    match OrderedMap.find? k fs with
    | none => some (OrderedMap.put k (.table []) fs)
    | some (.table _) => some fs
    | some (.arr items) => match items.getLast? with
      | some (.table _) => some fs
      | _ => none
    | some _ => none

/-- Starts a new table at the end of an array of tables. -/
def appendTable : Path → Entries → Option Entries :=
  change fun k fs =>
    match OrderedMap.find? k fs with
    | none => some (OrderedMap.put k (.arr [.table []]) fs)
    | some (.arr items) => some (OrderedMap.put k (.arr (items ++ [.table []])) fs)
    | some _ => none

/-- A table header. A table is declared once. -/
def Document.declare (d : Document) (path : Path) : Option Document :=
  let declared := d.declared ++ d.pending
  if declared.contains path || d.isClosed path then none
  else (makeTable path d.root.entries).map fun root =>
    ⟨⟨root⟩, declared ++ [path], [], d.closed⟩

/-- The header of a table in an array of tables; what was below the array may be declared anew. -/
def Document.append (d : Document) (path : Path) : Option Document :=
  if d.isClosed path then none
  else (appendTable path d.root.entries).map fun root =>
    let keep (p : Path) : Bool := !path.isPrefixOf p
    ⟨⟨root⟩, (d.declared ++ d.pending).filter keep ++ [path], [], d.closed.filter keep⟩

/-- The proper non-empty beginnings of a key. -/
def beginnings (path : Path) : List Path :=
  (List.range (path.length - 1)).map fun i => path.take (i + 1)

/-- An assignment below a header. -/
def Document.assign (d : Document) (header path : Path) (v : Value) : Option Document :=
  let opened := (beginnings path).map (header ++ ·)
  let full := header ++ path
  if opened.any d.declared.contains || d.isClosed full.dropLast then none
  else (putNew v full d.root.entries).map fun root =>
    let closed := if v.isContainer then d.closed ++ [full] else d.closed
    ⟨⟨root⟩, d.declared, d.pending ++ opened, closed⟩

/-- Reads the lines of a document, below the header that was read last. -/
def readLines : Nat → Document → Path → List Char → Option Document
  | 0, _, _, _ => none
  | fuel + 1, d, header, cs =>
    match skipGaps cs with
    | [] => some d
    | '\n' :: rest => readLines fuel d header rest
    | '#' :: rest => (endLine? ('#' :: rest)).bind (readLines fuel d header)
    | '[' :: '[' :: rest => do
      let (path, rest) ← readKey rest.length rest
      match rest with
      | ']' :: ']' :: rest => readLines fuel (← d.append path) path (← endLine? rest)
      | _ => none
    | '[' :: rest => do
      let (path, rest) ← readKey rest.length rest
      match rest with
      | ']' :: rest => readLines fuel (← d.declare path) path (← endLine? rest)
      | _ => none
    | cs => do
      let (path, rest) ← readKey cs.length cs
      match rest with
      | '=' :: rest =>
        let (v, rest) ← readValue (rest.length + 1) (skipGaps rest)
        readLines fuel (← d.assign header path v) header (← endLine? rest)
      | _ => none

/-- Line ends of two characters made one. -/
def unixLines : List Char → List Char
  | '\r' :: '\n' :: rest => '\n' :: unixLines rest
  | c :: rest => c :: unixLines rest
  | [] => []

/-- The tables of a document; none if it is malformed. -/
def read? (s : String) : Option Table :=
  let cs := unixLines s.toList
  (readLines (cs.length + 1) .empty [] cs).map (·.root)

end ChartLowering.Toml
