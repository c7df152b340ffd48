import Mathlib.Data.List.DropRight
import Mathlib.Data.List.Sort
import OnchainInvoice.Lib.Casing
import OnchainInvoice.Lib.Json

/-!
# The persist log

`persist-log.ts`: events are appended to an active file, one line of JSON each, and a full file is
sealed into a numbered compressed segment.  `appendSync` is kept as the sequence of the file
operations it makes, so that a crash can stop it between any two of them or in the middle of one.
File contents are the characters they decode to.
-/

namespace OnchainInvoice.Persist

open Lib.Json
open Lib.Casing (isWhite)

/-- `node:zlib`, with the one thing the log relies on. -/
structure Zlib (Z : Type) where
  gzipSync : Text → Z
  gunzipSync : Z → Option Text
  gunzip_gzip : ∀ t, gunzipSync (gzipSync t) = some t

structure PersistLogEvent where
  ts : Text
  stream : Text
  type : Text
  id : Text
  payload : List (Text × Value)

def PersistLogEvent.members (evt : PersistLogEvent) : List (Text × Value) :=
  [("ts".toList, .string evt.ts), ("stream".toList, .string evt.stream),
    ("type".toList, .string evt.type), ("id".toList, .string evt.id),
    ("payload".toList, .object evt.payload)]

def PersistLogEvent.json (evt : PersistLogEvent) : Value := .object evt.members

-- The line an event is written as.
def line (evt : PersistLogEvent) : Text := stringify evt.json ++ ['\n']

/-! ## Files -/

-- The directory of a stream: `wal.ndjson`, `wal.rotating` and the other files by their names.
structure StreamDir (Z : Type) where
  wal : Option Text
  rotating : Option Text
  segments : List (Text × Z)

def StreamDir.empty (Z : Type) : StreamDir Z := ⟨none, none, []⟩

inductive FileOp (Z : Type) where
  | append (line : Text)
  | rename
  | writeSegment (name : Text) (content : Z)
  | unlink
  | createWal

variable {Z : Type}

def writeFile (name : Text) (content : Z) (files : List (Text × Z)) : List (Text × Z) :=
  if files.any fun f => f.1 = name then
    files.map fun f => if f.1 = name then (name, content) else f
  else files ++ [(name, content)]

def FileOp.apply (op : FileOp Z) (d : StreamDir Z) : StreamDir Z :=
  match op with
  | .append line => { d with wal := some (d.wal.getD [] ++ line) }
  | .rename => { d with wal := none, rotating := d.wal }
  | .writeSegment name content => { d with segments := writeFile name content d.segments }
  | .unlink => { d with rotating := none }
  | .createWal => { d with wal := some [] }

def applyAll (ops : List (FileOp Z)) (d : StreamDir Z) : StreamDir Z :=
  ops.foldl (fun d op => op.apply d) d

/-! ## Segment names -/

def padStart (width : Nat) (t : Text) : Text := List.replicate (width - t.length) '0' ++ t

def SEG : Text := ['s', 'e', 'g', '-']
def NDJSON_GZ : Text := ['.', 'n', 'd', 'j', 's', 'o', 'n', '.', 'g', 'z']

def segmentName (n : Nat) : Text := SEG ++ (padStart 6 (Nat.toDigits 10 n) ++ NDJSON_GZ)

-- `/^seg-(\d+)\.ndjson\.gz$/` and the number it captures.
def segmentNumber (name : Text) : Option Nat :=
  let digits := (name.drop SEG.length).take (name.length - (SEG.length + NDJSON_GZ.length))
  if name = SEG ++ (digits ++ NDJSON_GZ) ∧ digits ≠ [] ∧ digits.all Char.isDigit then
    some (Nat.ofDigitChars 10 digits 0)
  else none

def maxSegment (d : StreamDir Z) : Nat :=
  (d.segments.filterMap fun f => segmentNumber f.1).foldl max 0

/-! ## Writing -/

def DEFAULT_ROTATE_BYTES : Nat := 8 * 1024 * 1024
def DEFAULT_ROTATE_SEC : Int := 60

-- `statSync(path).size`
def size (t : Text) : Nat := t.foldl (fun n c => n + c.utf8Size) 0

variable (zlib : Zlib Z)

def sealSync (d : StreamDir Z) : List (FileOp Z) :=
  match d.wal with
  | none => []
  | some wal =>
    if size wal = 0 then []
    else [.rename, .writeSegment (segmentName (maxSegment d + 1)) (zlib.gzipSync wal), .unlink,
      .createWal]

-- `ageMs` is `Date.now() - st.mtimeMs`.
def maybeSealSync (ageMs : Int) (d : StreamDir Z) : List (FileOp Z) :=
  match d.wal with
  | none => []
  | some wal =>
    if size wal = 0 then []
    else if size wal < DEFAULT_ROTATE_BYTES ∧ ageMs < DEFAULT_ROTATE_SEC * 1000 then []
    else sealSync zlib d

def appendSync (evt : PersistLogEvent) (ageMs : Int) (d : StreamDir Z) : List (FileOp Z) :=
  let op := .append (line evt)
  op :: maybeSealSync zlib ageMs (op.apply d)

/-! ## Crashes -/

-- What is left of the operation that was being made.  A line that is cut inside a character ends
-- with what those bytes decode to.
inductive Rest (Z : Type) where
  | nothing
  | torn (characters : Nat) (split : Bool)
  | contents (content : Z)

def interrupt (rest : Rest Z) (op : FileOp Z) (d : StreamDir Z) : StreamDir Z :=
  match op, rest with
  | .append text, .torn n split =>
    let cut := split && (text[n]?.any fun c => 0x80 ≤ c.toNat)
    if n < text.length then
      { d with wal := some (d.wal.getD [] ++ (text.take n ++ if cut then ['\uFFFD'] else [])) }
    else d
  | .writeSegment name _, .contents content =>
    { d with segments := writeFile name content d.segments }
  | _, _ => d

inductive Action (Z : Type) where
  | append (evt : PersistLogEvent) (ageMs : Int)
  | crash (evt : PersistLogEvent) (ageMs : Int) (done : Nat) (rest : Rest Z)

def Action.ops (d : StreamDir Z) : Action Z → List (FileOp Z)
  | .append evt ageMs => appendSync zlib evt ageMs d
  | .crash evt ageMs _ _ => appendSync zlib evt ageMs d

-- The operations that are made in full.
def Action.made (d : StreamDir Z) (a : Action Z) : List (FileOp Z) :=
  match a with
  | .append _ _ => a.ops zlib d
  | .crash _ _ done _ => (a.ops zlib d).take done

-- The operation a crash stops in, if it does not come after the last.
def Action.stopped (d : StreamDir Z) (a : Action Z) : Option (FileOp Z) :=
  match a with
  | .append _ _ => none
  | .crash _ _ done _ => (a.ops zlib d)[done]?

def Action.perform (d : StreamDir Z) (a : Action Z) : StreamDir Z :=
  match a with
  | .append _ _ => applyAll (a.made zlib d) d
  | .crash _ _ _ rest =>
    match a.stopped zlib d with
    | some op => interrupt rest op (applyAll (a.made zlib d) d)
    | none => applyAll (a.made zlib d) d

def after (actions : List (Action Z)) : StreamDir Z :=
  actions.foldl (fun d a => a.perform zlib d) (StreamDir.empty Z)

/-! ## Reading -/

def trim (t : Text) : Text := (t.dropWhile isWhite).rdropWhile isWhite

-- What a generator yields, and whether it ends by throwing.
structure Iteration where
  events : List Value
  thrown : Bool

def Iteration.andThen (i : Iteration) (next : Iteration) : Iteration :=
  if i.thrown then i else ⟨i.events ++ next.events, next.thrown⟩

def Iteration.caught (i : Iteration) : Iteration := ⟨i.events, false⟩

def yieldLines : List Text → Iteration
  | [] => ⟨[], false⟩
  | line :: lines =>
    let trimmed := trim line
    if trimmed = [] then yieldLines lines
    else
      match parse trimmed with
      | none => ⟨[], true⟩
      | some evt => Iteration.andThen ⟨[evt], false⟩ (yieldLines lines)

def yieldText (t : Text) : Iteration := yieldLines (t.splitOn '\n')

def yieldSegments : List (Text × Z) → Iteration
  | [] => ⟨[], false⟩
  | file :: files =>
    match zlib.gunzipSync file.2 with
    | none => ⟨[], true⟩
    | some text => (yieldText text).andThen (yieldSegments files)

def segmentFiles (d : StreamDir Z) : List (Text × Z) :=
  (d.segments.filter fun f => SEG.isPrefixOf f.1 && NDJSON_GZ.isSuffixOf f.1).insertionSort
    fun f g => List.le f.1 g.1

-- A line of the active file that cannot be parsed ends the iteration without an error.
def yieldWal (d : StreamDir Z) : Iteration :=
  match d.wal with
  | none => ⟨[], false⟩
  | some wal => (yieldText wal).caught

def iterPersistEvents (d : StreamDir Z) : Iteration :=
  (yieldSegments zlib (segmentFiles d)).andThen (yieldWal d)

end OnchainInvoice.Persist
