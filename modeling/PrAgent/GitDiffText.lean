import PrAgent.InlineThreadBody
import PrAgent.Utf8Text
set_option autoImplicit false

namespace PrAgent

section Names

-- The parts of a path that an index entry may have.
def gitPart (part : List UInt8) : Bool := !part.isEmpty && part ≠ [46] && part ≠ [46, 46] && part ≠ [46, 103, 105, 116]

def gitAccepts (bytes : List UInt8) : Bool := !bytes.contains 0 && (bytes.splitOn 47).all gitPart

@[ext]
structure GitName where
  bytes : List UInt8
  accepted : gitAccepts bytes = true
  deriving DecidableEq

namespace GitName

-- With `core.quotePath` at its default.
def quotesByte (byte : UInt8) : Bool := byte < 0x20 || 0x7F ≤ byte || byte = 0x22 || byte = 0x5C

def quoted (name : GitName) : Bool := name.bytes.any quotesByte

def byteChar (byte : UInt8) : Char := Char.ofNat byte.toNat

def octal (byte : UInt8) : Text :=
  [byteChar (48 + byte / 64), byteChar (48 + byte / 8 % 8), byteChar (48 + byte % 8)]

def escapeByte (byte : UInt8) : Text :=
  if quotesByte byte then
    '\\' :: match byte with
      | 7 => ['a'] | 8 => ['b'] | 9 => ['t'] | 10 => ['n'] | 11 => ['v'] | 12 => ['f'] | 13 => ['r']
      | 34 => ['"'] | 92 => ['\\']
      | byte => octal byte
  else [byteChar byte]

def plainText (name : GitName) : Text := name.bytes.map byteChar

-- A name under `a/` or `b/`.
def side (mark : Text) (name : GitName) : Text :=
  if name.quoted then '"' :: (mark ++ (name.bytes.flatMap escapeByte ++ ['"'])) else mark ++ name.plainText

-- A name with blanks is followed by a tab where a line shows it alone.
def tab (name : GitName) : Text := if name.bytes.contains 32 then ['\t'] else []

end GitName
end Names

section Files

structure Line where
  chars : Text
  single : '\n' ∉ chars

inductive HunkLine
  | context (content : Line)
  | removed (content : Line)
  | added (content : Line)
  | noNewline

structure DiffHunk where
  range : Line
  lines : List HunkLine

inductive ExtendedHeader
  | oldMode | newMode | deletedFileMode | newFileMode | index

inductive FileBody
  | unchanged
  | binary
  | hunks (fromNothing toNothing : Bool) (parts : List DiffHunk)

-- What a diff says of one path.
structure FileDiff where
  path : GitName
  extended : List (ExtendedHeader × Line)
  body : FileBody

def HunkLine.shown : HunkLine → Text
  | .context content => ' ' :: content.chars
  | .removed content => '-' :: content.chars
  | .added content => '+' :: content.chars
  | .noNewline => text "\\ No newline at end of file"

def ExtendedHeader.word : ExtendedHeader → Text
  | .oldMode => text "old mode "
  | .newMode => text "new mode "
  | .deletedFileMode => text "deleted file mode "
  | .newFileMode => text "new file mode "
  | .index => text "index "

def DiffHunk.shown (hunk : DiffHunk) : List Text := (text "@@ " ++ hunk.range.chars) :: hunk.lines.map HunkLine.shown

def FileDiff.header (file : FileDiff) : Text :=
  text "diff --git " ++ (file.path.side (text "a/") ++ ' ' :: file.path.side (text "b/"))

def FileDiff.bodyLines (file : FileDiff) : List Text :=
  match file.body with
  | .unchanged => []
  | .binary =>
    [text "Binary files " ++ (file.path.side (text "a/") ++ (text " and " ++ (file.path.side (text "b/") ++ text " differ")))]
  | .hunks fromNothing toNothing parts =>
    (text "--- " ++ if fromNothing then text "/dev/null" else file.path.side (text "a/") ++ file.path.tab) ::
      (text "+++ " ++ if toNothing then text "/dev/null" else file.path.side (text "b/") ++ file.path.tab) ::
      parts.flatMap DiffHunk.shown

def FileDiff.shown (file : FileDiff) : List Text :=
  file.header :: (file.extended.map (fun line => line.1.word ++ line.2.chars) ++ file.bodyLines)

-- The output of `git diff`.
def diffText (files : List FileDiff) : Text := (files.flatMap FileDiff.shown).flatMap fun line => line ++ ['\n']

def FileDiff.hunkLines (file : FileDiff) : List HunkLine :=
  match file.body with
  | .hunks _ _ parts => parts.flatMap DiffHunk.lines
  | _ => []

def HunkLine.isChange : HunkLine → Bool
  | .removed _ | .added _ => true
  | _ => false

-- The added and removed lines.
def lineChanges (files : List FileDiff) : Nat := (files.flatMap FileDiff.hunkLines).countP HunkLine.isChange

end Files
end PrAgent
