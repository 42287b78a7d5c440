import PrAgent.DescriptionMerge
set_option autoImplicit false

namespace PrAgent.ReturnInjection

open CommentMarkers (trimEnd)

section Words

-- `/[A-Za-z0-9_$]/`.
def isIdentifierChar (c : Char) : Bool := isWord c || c = '$'

def statementStart : List Text :=
  ["return", "const", "let", "var", "function", "class", "if", "for", "while", "switch", "try", "throw", "do", "async", "break", "continue",
    "debugger", "with", "import", "export"].map text

def restrictedAsi : List Text := ["return", "throw", "break", "continue"].map text

def continuationWords : List Text :=
  ["instanceof", "in", "typeof", "new", "void", "delete", "yield", "await", "extends", "of", "from", "case", "else", "do", "function", "class",
    "async", "const", "let", "var", "import", "export"].map text

def cannotEndChars : Text := text "=,+-*/%&|^?:.<>!~([\x7b"

-- `\b` behind a letter.
def atWordEnd (after : Text) : Bool := !after.head?.any isWord

-- `/^word\b/`.
def startsWithWord (word value : Text) : Bool := word <+: value && atWordEnd (value.drop word.length)

def isStatementStart (value : Text) : Bool := statementStart.any fun word => startsWithWord word value

def readWord (code : Text) : Text := code.takeWhile isIdentifierChar

def canStartStatement (code : Text) : Bool :=
  !code.head?.any (fun c => (text ".,)]\x7d:;").contains c) && !(["else", "catch", "finally"].map text).contains (readWord code)

end Words

section Scan

structure ScanState where
  depth : Int
  lastStmtStart : Nat
  inStr : Option Char
  inLineComment : Bool
  inBlockComment : Bool
  lastCanEnd : Bool
  lastWord : Text
  word : Text

def initialScan : ScanState := ⟨0, 0, none, false, false, false, [], []⟩

def isBlank (c : Char) : Bool := c = ' ' || c = '\t'

-- The index behind the blanks that follow an index, with the code from there.
def behindBlanks (index : Nat) (code : Text) : Nat × Text := (index + (code.takeWhile isBlank).length, code.dropWhile isBlank)

def breakStart (state : ScanState) (i : Nat) (c : Char) (rest : Text) : Nat :=
  if state.lastCanEnd && !restrictedAsi.contains state.lastWord then
    let found := if c = '\r' && rest.head? = some '\n' then behindBlanks (i + 2) (rest.drop 1) else behindBlanks (i + 1) rest
    if !found.2.isEmpty && canStartStatement found.2 then found.1 else state.lastStmtStart
  else state.lastStmtStart

-- One turn of the loop, with how many more characters it takes.
def scanStep (state : ScanState) (i : Nat) (c : Char) (rest : Text) : ScanState × Nat :=
  if state.inLineComment then ({ state with inLineComment := !(c = '\n') }, 0)
  else if state.inBlockComment then
    if c = '*' && rest.head? = some '/' then ({ state with inBlockComment := false }, 1) else (state, 0)
  else
    match state.inStr with
    | some quote =>
      if c = '\\' then (state, 1)
      else if c = quote then ({ state with inStr := none, lastCanEnd := true, lastWord := [], word := [] }, 0)
      else (state, 0)
    | none =>
      if c = '/' && rest.head? = some '/' then ({ state with inLineComment := true }, 1)
      else if c = '/' && rest.head? = some '*' then ({ state with inBlockComment := true }, 1)
      else if c = '"' || c.toNat = 39 || c.toNat = 96 then ({ state with inStr := some c, word := [] }, 0)
      else if c = '\x7b' || c = '(' || c = '[' then
        ({ state with depth := state.depth + 1, lastCanEnd := false, lastWord := [], word := [] }, 0)
      else if c = '\x7d' || c = ')' || c = ']' then
        ({ state with depth := state.depth - 1, lastCanEnd := true, lastWord := [], word := [] }, 0)
      else if state.depth = 0 && c = ';' then
        ({ state with lastStmtStart := i + 1, lastCanEnd := false, lastWord := [], word := [] }, 0)
      else if state.depth = 0 && (c = '\n' || c = '\r') then ({ state with lastStmtStart := breakStart state i c rest }, 0)
      else if c = ' ' || c = '\t' then ({ state with word := [] }, 0)
      else if isIdentifierChar c then
        ({ state with word := state.word ++ [c], lastWord := state.word ++ [c],
                      lastCanEnd := !continuationWords.contains (state.word ++ [c]) }, 0)
      else if c = '+' && rest.head? = some '+' then ({ state with word := [], lastWord := [], lastCanEnd := true }, 1)
      else if c = '-' && rest.head? = some '-' then ({ state with word := [], lastWord := [], lastCanEnd := true }, 1)
      else ({ state with word := [], lastWord := [], lastCanEnd := !cannotEndChars.contains c }, 0)

-- The loop; the first argument counts the characters that the turn before has taken.
def scan : Nat → Nat → ScanState → Text → ScanState
  | _, _, state, [] => state
  | skip + 1, i, state, _ :: rest => scan skip (i + 1) state rest
  | 0, i, state, c :: rest => scan (scanStep state i c rest).2 (i + 1) (scanStep state i c rest).1 rest

def lastTopLevelStatementStart (code : Text) : Nat := (scan 0 0 initialScan code).lastStmtStart

end Scan

section Inject

def injectLastExpressionReturn (code : Text) : Text :=
  let trimmed := trimEnd code
  if (trim trimmed).length = 0 then text "return undefined"
  else
    let lastStart := lastTopLevelStatementStart trimmed
    let front := trimmed.take lastStart
    let last := trim (trimmed.drop lastStart)
    if last = [] then trimmed
    else if startsWithWord (text "return") last || startsWithWord (text "await") last then
      if startsWithWord (text "await") last then front ++ (text "return " ++ last) else trimmed
    else if isStatementStart last then trimmed
    else front ++ (text "return " ++ last)

end Inject
end PrAgent.ReturnInjection

namespace PrAgent.ReturnInjection

section Parts

inductive Break
  | lf | cr | crlf
  deriving DecidableEq, Repr

def Break.text : Break → Text
  | .lf => ['\n']
  | .cr => ['\r']
  | .crlf => ['\r', '\n']

inductive Quote
  | double | single | backtick
  deriving DecidableEq, Repr

def Quote.char : Quote → Char
  | .double => '"'
  | .single => Char.ofNat 39
  | .backtick => Char.ofNat 96

inductive Bracket
  | curly | round | square
  deriving DecidableEq, Repr

def Bracket.opens : Bracket → Char
  | .curly => '\x7b'
  | .round => '('
  | .square => '['

def Bracket.closes : Bracket → Char
  | .curly => '\x7d'
  | .round => ')'
  | .square => ']'

-- No quote of the literal's kind but behind a backslash, and no backslash at the end.
def quotedBody (quote : Char) : Text → Bool
  | [] => true
  | c :: rest =>
    if c = '\\' then
      match rest with
      | [] => false
      | _ :: more => quotedBody quote more
    else c ≠ quote && quotedBody quote rest

-- The same for a literal that the script does not close.
def openBody (quote : Char) : Text → Bool
  | [] => true
  | c :: rest =>
    if c = '\\' then
      match rest with
      | [] => true
      | _ :: more => openBody quote more
    else c ≠ quote && openBody quote rest

def blockBody : Text → Bool
  | [] => true
  | c :: rest => !(c = '*' && rest.head? = some '/') && blockBody rest

def lineBody (body : Text) : Bool := body.all fun c => c ≠ '\n'

def isSign (c : Char) : Bool := !isIdentifierChar c && !(text "\"();[]\x7b\x7d \t\n\r").contains c && c.toNat ≠ 39 && c.toNat ≠ 96

-- The parts that the loop tells apart in a text. It knows identifiers, numbers and keywords as words, a template up to its next backtick as quoted,
-- and a regular expression by its characters. The open parts run to the end of the text.
inductive ScriptPart
  | blank (tab : Bool)
  | lineBreak (kind : Break)
  | lineComment (body : Text) (inner : lineBody body = true)
  | openComment (body : Text) (inner : lineBody body = true)
  | blockComment (body : Text) (inner : blockBody (body ++ ['*']) = true)
  | openBlock (body : Text) (inner : blockBody body = true)
  | semicolon
  | word (first : Char) (letters : Text) (own : isIdentifierChar first = true) (all : letters.all isIdentifierChar = true)
  | sign (c : Char) (own : isSign c = true)
  | twin (minus : Bool)
  | quoted (quote : Quote) (body : Text) (closed : quotedBody quote.char body = true)
  | openQuoted (quote : Quote) (body : Text) (inner : openBody quote.char body = true)
  | opener (bracket : Bracket)
  | closer (bracket : Bracket)

def twinChar (minus : Bool) : Char := if minus then '-' else '+'

def ScriptPart.text : ScriptPart → Text
  | .blank tab => [if tab then '\t' else ' ']
  | .lineBreak kind => kind.text
  | .lineComment body _ => '/' :: '/' :: (body ++ ['\n'])
  | .openComment body _ => '/' :: '/' :: body
  | .blockComment body _ => '/' :: '*' :: (body ++ ['*', '/'])
  | .openBlock body _ => '/' :: '*' :: body
  | .semicolon => [';']
  | .word first letters _ _ => first :: letters
  | .sign c _ => [c]
  | .twin minus => [twinChar minus, twinChar minus]
  | .quoted quote body _ => quote.char :: (body ++ [quote.char])
  | .openQuoted quote body _ => quote.char :: body
  | .opener bracket => [bracket.opens]
  | .closer bracket => [bracket.closes]

def partsText (parts : List ScriptPart) : Text := parts.flatMap ScriptPart.text

-- What a part may be followed by without another reading.
def ScriptPart.meets (next : Option Char) : ScriptPart → Bool
  | .sign c _ => !(c = '/' && (next = some '/' || next = some '*')) && !(c = '+' && next = some '+') && !(c = '-' && next = some '-')
  | .lineBreak .cr => next ≠ some '\n'
  | .openComment .. | .openBlock .. | .openQuoted .. => next = none
  | _ => true

def Apart : List ScriptPart → Bool
  | [] => true
  | part :: rest => part.meets (partsText rest).head? && Apart rest

end Parts

section Reading

-- What the scanner keeps of the parts that it has read.
structure Reading where
  depth : Int
  canEnd : Bool
  lastWord : Text
  word : Text

def Reading.state (reading : Reading) (start : Nat) : ScanState :=
  ⟨reading.depth, start, none, false, false, reading.canEnd, reading.lastWord, reading.word⟩

def Reading.first : Reading := ⟨0, false, [], []⟩

def Reading.other (reading : Reading) (canEnd : Bool) : Reading := { reading with canEnd, lastWord := [], word := [] }

def ScriptPart.read (reading : Reading) : ScriptPart → Reading
  | .blank _ => { reading with word := [] }
  | .lineBreak _ => if reading.depth = 0 then reading else reading.other true
  | .lineComment .. | .openComment .. | .blockComment .. | .openBlock .. => reading
  | .semicolon => reading.other (reading.depth ≠ 0)
  | .word first letters _ _ =>
    let word := reading.word ++ first :: letters
    { reading with canEnd := !continuationWords.contains word, lastWord := word, word }
  | .sign c _ => reading.other !cannotEndChars.contains c
  | .twin _ | .quoted .. | .openQuoted .. => reading.other true
  | .opener _ => { reading with depth := reading.depth + 1, canEnd := false, lastWord := [], word := [] }
  | .closer _ => { reading with depth := reading.depth - 1, canEnd := true, lastWord := [], word := [] }

-- Whether the scanner starts a statement behind the part.
def ScriptPart.splits (reading : Reading) (next : Text) : ScriptPart → Bool
  | .semicolon => reading.depth = 0
  | .lineBreak _ =>
    reading.depth = 0 && reading.canEnd && !restrictedAsi.contains reading.lastWord && !(next.dropWhile isBlank).isEmpty &&
      canStartStatement (next.dropWhile isBlank)
  | _ => false

-- The blanks that a statement's start leaves behind.
def ScriptPart.skips (next : Text) : ScriptPart → Nat
  | .lineBreak _ => (next.takeWhile isBlank).length
  | _ => 0

def splitBehind (reading : Reading) (part : ScriptPart) (next : Text) (index start : Nat) : Nat :=
  if part.splits reading next then index + part.text.length + part.skips next else start

end Reading
end PrAgent.ReturnInjection
