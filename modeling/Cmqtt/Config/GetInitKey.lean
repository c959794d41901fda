import Cmqtt.Process

/-!
# Reading a key of a configuration file

`GetInitKey` of `lib/init.c`, byte by byte: a loop (`step`) that assembles a
line in `tmpLine` and, at a newline or at the end of the file, decides on the
line (`processLine`):

* empty lines and lines starting with `#` or `;` are skipped;
* a line starting with `[` ends the search once the section was entered;
* in the section, a line with `=` whose text before it matches the key
  (the first occurrence of the key stands between line ends or blanks) gives
  the value, the text after `=` without leading blanks;
* any other line is compared with the header `[title]` of the section.

The file is a stream (`Stream`) of bytes ending in the end of the file or, as
when a directory is opened, in a read error, where `fgetc` returns `EOF` for
ever without `feof` becoming true. The loop is run with fuel (`run`); a stream
of `n` bytes ends the loop in `n + 2` iterations if at all, so that running out
of fuel there is a loop that never ends (`getInitKey`).

`tmpLine` is modelled by the bytes it holds below the index `i`, which is their
number: nothing reads above the NUL put there before a line is processed.
-/

namespace Cmqtt

/-- A file: its bytes, and whether reading past them is an error rather than
    the end of the file. -/
structure File where
  bytes : List UInt8
  bad : Bool
  deriving DecidableEq

/-- A regular file. -/
def File.regular (bytes : List UInt8) : File := ⟨bytes, false⟩

/-- An open stream: what is still to be read, whether reading past it is an
    error, and the end-of-file indicator. -/
structure Stream where
  rest : List UInt8
  bad : Bool
  feof : Bool

/-- The stream `fopen` gives. -/
def Stream.fopen (f : File) : Stream := ⟨f.bytes, f.bad, false⟩

/-- Reading a byte: `none` is `EOF`. -/
def Stream.fgetc (fp : Stream) : Option UInt8 × Stream :=
  match fp.rest with
  | b :: rest => (some b, { fp with rest })
  | [] => (none, { fp with feof := !fp.bad })

namespace GetInitKey

/-- The newline, which ends a line. -/
abbrev newline : UInt8 := 10
/-- The character `=`. -/
abbrev equals : UInt8 := 61
/-- The character `[`, which starts a header. -/
abbrev bracket : UInt8 := 91

/-- The header of a section, as put together in `tmpstr`. -/
def header (title : CString) : List UInt8 := ascii "[" ++ title.bytes ++ ascii "]"

/-- How the loop body leaves a line. -/
inductive Exit
  /-- `continue`, without looking at the end of the file. -/
  | skip
  /-- The end of the body, with the flag of the section. -/
  | next (flag : Bool)
  /-- `break`. -/
  | stop
  /-- `return` of the value. -/
  | ret (value : CString)
  deriving DecidableEq

/-- The decision on an entry of the section, whose `=` is at `tmp`: does the
    text before it match the key? -/
def matchEntry (key : CString) (line : List UInt8) (tmp : ℕ) : Except Stop Exit :=
  -- the byte at `tmp` is now NUL: `keyText` is the string `tmpLine` holds
  let keyText := line.take tmp
  match strstr keyText key.bytes with
  | none => .ok (.next true)
  | some p =>
    if 0 < p && (strchr (ascii " \t") (charAt keyText (p - 1))).isNone then .ok .skip
    else
      let p := p + key.bytes.length
      if charAt keyText p == 0 || (strchr (ascii " \t") (charAt keyText p)).isSome then do
        let tmpstr ← strcpy .tmpstr 1024 ((line.drop (tmp + 1)).dropWhile isBlank)
        return .ret tmpstr
      else .ok (.next true)

/-- The comparison of a line with the header of the section. -/
def compareTitle (title : CString) (flag : Bool) (line : List UInt8) : Except Stop Exit := do
  let tmpstr ← strcpy .tmpstr 1024 (header title)
  return .next (flag || tmpstr.bytes == line)

/-- The part of the loop body that decides on a line, `flag` telling whether
    the section has been entered. -/
def processLine (title key : CString) (flag : Bool) (tmpLine : List UInt8) : Except Stop Exit :=
  let line := (CString.ofBytes tmpLine).bytes
  if charAt line 0 == 0 || (strchr (ascii "#;") (charAt line 0)).isSome then .ok .skip
  else if charAt line 0 == bracket && flag then .ok .stop
  else
    match if charAt line 0 == bracket then none else strchr line equals with
    | some tmp => if flag then matchEntry key line tmp else compareTitle title flag line
    | none => compareTitle title flag line

/-- The variables of the loop: the stream, `tmpLine[0..i)` and `flag`. -/
structure Loop where
  fp : Stream
  tmpLine : List UInt8
  flag : Bool

/-- The rest of the loop body after a whole line was read; `eof` tells whether
    the line ended at `EOF`. -/
def endLine (title key : CString) (flag eof : Bool) (fp : Stream) (tmpLine : List UInt8) :
    Except Stop (Loop ⊕ CString) := do
  match ← processLine title key flag tmpLine with
  | .skip => return .inl ⟨fp, [], flag⟩
  | .next flag => if eof then return .inr .empty else return .inl ⟨fp, [], flag⟩
  | .stop => return .inr .empty
  | .ret value => return .inr value

/-- An iteration of the loop, from its condition on: the next iteration or the
    value returned. -/
def step (title key : CString) (s : Loop) : Except Stop (Loop ⊕ CString) :=
  if s.fp.feof then .ok (.inr .empty)
  else if 1024 ≤ s.tmpLine.length then .error (.overflow .tmpLine)
  else
    match s.fp.fgetc with
    | (some b, fp) =>
      if b = newline then endLine title key s.flag false fp s.tmpLine
      else .ok (.inl { s with fp, tmpLine := s.tmpLine ++ [b] })
    | (none, fp) => endLine title key s.flag true fp s.tmpLine

/-- At most `n` iterations of the loop: the outcome, if they end it. -/
def run (title key : CString) : ℕ → Loop → Option (Except Stop CString)
  | 0, _ => none
  | n + 1, s =>
    match step title key s with
    | .error e => some (.error e)
    | .ok (.inr value) => some (.ok value)
    | .ok (.inl s) => run title key n s

/-- The loop at its start. -/
def start (f : File) : Loop := ⟨.fopen f, [], false⟩

end GetInitKey

open GetInitKey in
/-- `GetInitKey`, on the file the name resolves to, if it can be opened. -/
def getInitKey (file : Option File) (title key : CString) : Except Stop CString :=
  match file with
  | none => .ok (.lit "have no such file")
  | some f => (run title key (f.bytes.length + 2) (start f)).getD (.error .hang)

end Cmqtt
