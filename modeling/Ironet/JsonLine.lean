import Ironet.Support.Checked

/-!
# JSON-line framing

`json_line.rs` writes a message as one line and reads lines of bounded size from a buffered reader.
What `serde_json` does is a parameter with the two facts that the framing rests on.
-/
namespace Ironet.JsonLine
open Support List

abbrev Bytes := List UInt8

def newline : UInt8 := 10

/-- `serde_json` at one type of messages. -/
structure Json (T : Type) where
  toVec : T → Except String Bytes
  fromSlice : Bytes → Except String T
  noNewline : ∀ {value encoded}, toVec value = .ok encoded → newline ∉ encoded
  decodes : ∀ {value encoded}, toVec value = .ok encoded → fromSlice encoded = .ok value
  empty : ∀ value, fromSlice [] ≠ .ok value

/-- What a reader has left, in the pieces in which `fill_buf` gives it. -/
abbrev Reader := List Bytes

def exceeds (maximum : Nat) : String := s!"JSON-line message exceeds {maximum} bytes"

section
variable {T : Type} (json : Json T) (maximum : Nat)

/-- The bytes that `write` passes on. -/
def write (value : T) : Except String Bytes := do
  let encoded ← (json.toVec value).mapError fun _ => "encoding JSON-line message"
  ensure (encoded.length ≤ maximum) (exceeds maximum)
  return encoded ++ [newline]

/-- How many bytes of `available` belong to the line. -/
def lineEnd (available : Bytes) : Nat :=
  (available.findIdx? (· = newline)).elim available.length (· + 1)

structure LineRead where
  result : Except String Bytes
  reader : Reader
  /-- The most bytes that `line` held. -/
  buffered : Nat

/-- The loop of `read_bounded_line`. -/
def readBoundedLine (line : Bytes) : Reader → LineRead
  | [] => ⟨.ok line, [], line.length⟩
  | available :: rest =>
    if available = [] then ⟨.ok line, available :: rest, line.length⟩ else
    let take := lineEnd available
    if line.length + take ≤ maximum then
      let line' := line ++ available.take take
      if available[take - 1]? = some newline then
        -- `fill_buf` never gives an empty piece before the end
        let left := available.drop take
        ⟨.ok line'.dropLast, if left = [] then rest else left :: rest, line'.length⟩
      else
        -- the piece is consumed whole
        readBoundedLine line' rest
    else ⟨.error (exceeds maximum), available :: rest, line.length⟩

/-- A call of `read`: its result and the reader after it. -/
def read (reader : Reader) : Except String T × Reader :=
  let line := readBoundedLine maximum [] reader
  (do
    let bytes ← line.result
    ensure (bytes ≠ []) "empty JSON-line message"
    (json.fromSlice bytes).mapError fun _ => "invalid JSON-line message", line.reader)

/-- The results of successive calls of `read`. -/
def reads : Nat → Reader → List (Except String T)
  | 0, _ => []
  | n + 1, reader => (read json maximum reader).1 :: reads n (read json maximum reader).2

end

/-! ### One line -/

theorem lineEnd_append {available : Bytes} (clear : newline ∉ available) (more : Bytes) :
    lineEnd (available ++ more) = available.length + lineEnd more := by
  have none : available.findIdx? (· = newline) = none := by
    simpa [findIdx?_eq_none_iff] using fun byte member (same : byte = newline) =>
      clear (same ▸ member)
  rw [lineEnd, lineEnd, findIdx?_append, none]
  cases more.findIdx? (· = newline) with
  | none => simp
  | some index => simp; omega

theorem lineEnd_frame {body : Bytes} (clear : newline ∉ body) (more : Bytes) :
    lineEnd (body ++ newline :: more) = body.length + 1 := by
  rw [lineEnd_append clear]
  simp [lineEnd, findIdx?_cons]

theorem filter_clear {body : Bytes} (clear : newline ∉ body) : body.filter (· ≠ newline) = body :=
  filter_eq_self.mpr fun _ member => decide_eq_true fun same => clear (same ▸ member)

/-- A line is read from any pieces exactly when it fits with its terminator. -/
theorem readBoundedLine_spec (maximum : Nat) (reader : Reader) (pieces : [] ∉ reader)
    (line : Bytes) (small : line.length ≤ maximum) :
    let read := readBoundedLine maximum line reader
    let stop := lineEnd reader.flatten
    read.buffered ≤ maximum ∧
    if line.length + stop ≤ maximum then
      read.result = .ok (line ++ (reader.flatten.take stop).filter (· ≠ newline)) ∧
      read.reader.flatten = reader.flatten.drop stop ∧ [] ∉ read.reader
    else read.result = .error (exceeds maximum) := by
  induction reader generalizing line with
  | nil => simp [readBoundedLine, lineEnd, small]
  | cons available rest ih =>
    rw [mem_cons, not_or] at pieces
    obtain ⟨nonempty, pieces⟩ := pieces
    rw [readBoundedLine, if_neg (Ne.symm nonempty), flatten_cons]
    by_cases ends : newline ∈ available
    · -- the line ends in this piece
      obtain ⟨body, left, rfl, clear⟩ := eq_append_cons_of_mem ends
      have last : (body ++ newline :: left)[body.length + 1 - 1]? = some newline := by simp
      have taken (more : Bytes) :
          (body ++ newline :: more).take (body.length + 1) = body ++ [newline] := by
        simp [take_append]
      rw [append_assoc, cons_append, lineEnd_frame clear, lineEnd_frame clear]
      by_cases fits : line.length + (body.length + 1) ≤ maximum
      · simp only [if_pos fits, last, if_true, taken, filter_append, filter_clear clear]
        refine ⟨by simpa using fits, by simp [← append_assoc], ?_, ?_⟩
        · by_cases none : left = [] <;> simp [none, drop_append]
        · by_cases none : left = [] <;> simp [none, drop_append, pieces, Ne.symm]
      · simpa only [if_neg fits, and_true] using small
    · -- the whole piece belongs to the line
      have whole : lineEnd available = available.length := by
        simpa [lineEnd] using lineEnd_append ends []
      rw [lineEnd_append ends, whole]
      by_cases fits : line.length + available.length ≤ maximum
      · have goesOn : available[available.length - 1]? ≠ some newline :=
          fun last => ends (mem_of_getElem? last)
        have step := ih pieces (line ++ available) (by simpa using fits)
        simp only [length_append, add_assoc, append_assoc] at step
        simp only [if_pos fits, if_neg goesOn, take_length, take_length_add_append,
          drop_length_add_append, filter_append, filter_clear ends]
        exact step
      · have long : ¬ line.length + (available.length + lineEnd rest.flatten) ≤ maximum := by omega
        simpa only [if_neg fits, if_neg long, and_true] using small

/-! ### Messages -/

section
variable {T : Type} {json : Json T} {maximum : Nat}

/-- A message that `write` accepted is read back when its line, terminator included, is within the
maximum, and is refused otherwise. -/
theorem read_written {value : T} {frame more : Bytes} {reader : Reader}
    (written : write json maximum value = .ok frame) (pieces : [] ∉ reader)
    (cut : reader.flatten = frame ++ more) : if frame.length ≤ maximum then
      (read json maximum reader).1 = .ok value ∧ (read json maximum reader).2.flatten = more ∧
        [] ∉ (read json maximum reader).2
    else (read json maximum reader).1 = .error (exceeds maximum) := by
  have line := (readBoundedLine_spec maximum reader pieces [] (Nat.zero_le _)).2
  cases encoding : json.toVec value with
  | error e => simp [write, encoding, Except.mapError] at written
  | ok encoded =>
    simp only [write, encoding, Except.mapError, do_eq_ok, pure, Except.pure] at written
    obtain ⟨encoded, rfl, -, rfl⟩ := written
    have clear := json.noNewline encoding
    have nonempty : encoded ≠ [] := by
      rintro rfl
      exact json.empty value (json.decodes encoding)
    rw [cut, append_assoc, singleton_append] at line
    simp only [lineEnd_frame clear, length_nil, zero_add, nil_append, take_length_add_append,
      drop_length_add_append, filter_append, filter_clear clear] at line
    rw [length_append, length_singleton]
    split at line
    case isTrue fits =>
      obtain ⟨result, left, pieces⟩ := line
      refine (if_pos fits).mpr ⟨?_, left, pieces⟩
      simp [read, result, ensure, nonempty, json.decodes encoding, Except.mapError]
    case isFalse long =>
      rw [if_neg long]
      simp [read, line]

end

/-- Messages that `write` accepted, and a reader that gives their lines in any pieces. -/
structure Exchange {T : Type} (json : Json T) (maximum : Nat) where
  values : List T
  frames : List Bytes
  written : Forall₂ (fun value frame => write json maximum value = .ok frame) values frames
  reader : Reader
  pieces : [] ∉ reader
  cut : reader.flatten = frames.flatten

variable {T : Type} (json : Json T) (maximum : Nat)

theorem framing_round_trips (exchange : Exchange json maximum) :
    (reads json maximum exchange.values.length exchange.reader = exchange.values.map .ok ↔
      ∀ frame ∈ exchange.frames, frame.length ≤ maximum) ∧
    ∀ reader : Reader, [] ∉ reader → (readBoundedLine maximum [] reader).buffered ≤ maximum ∧
      (maximum < lineEnd reader.flatten →
        (read json maximum reader).1 = .error (exceeds maximum)) := by
  constructor
  · obtain ⟨values, frames, written, reader, pieces, cut⟩ := exchange
    dsimp only
    induction written generalizing reader with
    | nil => simp [reads]
    | @cons value frame values frames first _ ih =>
      have step := read_written first pieces cut
      rw [length_cons, reads, map_cons, cons.injEq, forall_mem_cons]
      split at step
      case isTrue fits =>
        obtain ⟨result, left, pieces⟩ := step
        simpa only [result, fits, true_and] using ih _ pieces left
      case isFalse long => simp [step, long]
  · intro reader pieces
    obtain ⟨bounded, line⟩ := readBoundedLine_spec maximum reader pieces [] (Nat.zero_le _)
    refine ⟨bounded, fun long => ?_⟩
    rw [if_neg (by simpa using long)] at line
    simp [read, line]

/-- Booleans: `true` and `false`. -/
def boolJson : Json Bool where
  toVec value := .ok (if value then [116, 114, 117, 101] else [102, 97, 108, 115, 101])
  fromSlice bytes :=
    if bytes = [116, 114, 117, 101] then .ok true
    else if bytes = [102, 97, 108, 115, 101] then .ok false
    else .error "expected value"
  noNewline := by rintro (_ | _) _ ⟨⟩ <;> decide
  decodes := by rintro (_ | _) _ ⟨⟩ <;> rfl
  empty := by simp

/-- Two messages whose lines arrive in three pieces, the second with the end of one line and the
begin of the other. -/
def twoMessages : Exchange boolJson 6 where
  values := [true, false]
  frames := [[116, 114, 117, 101, newline], [102, 97, 108, 115, 101, newline]]
  written := .cons rfl (.cons rfl .nil)
  reader := [[116, 114], [117, 101, newline, 102, 97], [108, 115, 101, newline]]
  pieces := by decide
  cut := rfl

/-- Both messages are read in order, and a longer line is refused. -/
theorem framing_round_trips_pieces :
    reads boolJson 6 2 [[116, 114], [117, 101, newline, 102, 97], [108, 115, 101, newline]] =
        [.ok true, .ok false] ∧
      (read boolJson 6 [[102, 97, 108], [102, 97, 108, newline]]).1 = .error (exceeds 6) := by
  obtain ⟨inOrder, bounded⟩ := framing_round_trips boolJson 6 twoMessages
  exact ⟨inOrder.mpr (by decide),
    (bounded [[102, 97, 108], [102, 97, 108, newline]] (by decide)).2 (by decide)⟩

/-- A message of exactly the maximal size is written but not read. -/
theorem largest_message_refused : write boolJson 4 true = .ok [116, 114, 117, 101, newline] ∧
    reads boolJson 4 1 [[116, 114, 117, 101, newline]] =
      [.error "JSON-line message exceeds 4 bytes"] := by
  constructor <;> rfl

end Ironet.JsonLine
