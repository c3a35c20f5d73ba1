import Apicast.Foundation.ChunkedCoding
import Apicast.HeadersPolicy

/-!
# The chunked reader of request bodies

A body reader is called again and again, and returns a buffer, nothing at the end, or an error.
The chunked reader encodes each buffer as a chunk and returns the last chunk when the underlying
reader is at its end. A buffer without bytes is encoded like the last chunk, so that the body ends
there and the rest of the output is left over.
-/

namespace Apicast.RequestReader

open Foundation ChunkedCoding Lines Numeral

open HeadersPolicy (HeaderValue)

/-- What a call of a body reader returns. -/
structure ReadResult where
  buffer : Option Bytes
  err : Option String

/-- A body reader, as what each of its calls returns. -/
abbrev BodyReader := Nat → ReadResult

/-- The closure of the chunked reader. -/
structure Closure where
  eof : Bool
  /-- How often the underlying reader was called. -/
  reads : Nat

def chunk (buffer : Bytes) : Bytes := numeral 16 buffer.length ++ crlf ++ buffer ++ crlf

/-- `"0\r\n\r\n"` -/
def lastChunk : Bytes := [48] ++ crlf ++ crlf

/-- The function that `chunked_reader` returns. -/
def read (reader : BodyReader) (closure : Closure) : ReadResult × Closure :=
  if closure.eof then (⟨none, none⟩, closure)
  else
    let result := reader closure.reads
    let closure := { closure with reads := closure.reads + 1 }
    match result.err with
    | some err => (⟨none, some err⟩, closure)
    | none =>
        match result.buffer with
        | some buffer => (⟨some (chunk buffer), none⟩, closure)
        | none => (⟨some lastChunk, none⟩, { closure with eof := true })

/-- The closure after a number of calls. -/
def closureAfter (reader : BodyReader) : Nat → Closure
  | 0 => ⟨false, 0⟩
  | calls + 1 => (read reader (closureAfter reader calls)).2

/-- The chunked reader as a body reader. -/
def chunked (reader : BodyReader) : BodyReader := fun calls =>
  (read reader (closureAfter reader calls)).1

/-- What `chunked_reader` uses of nginx and of the client body reader. -/
structure Environment where
  /-- `httpc:get_client_body_reader` -/
  clientBodyReader : Nat → Option BodyReader
  expect : Option HeaderValue
  /-- The error of `sock:send`, if it fails. -/
  send : String → Option String

/-- The value that a function returns together with an error; calling a method that is not there
raises one instead. -/
abbrev Returns (Result : Type) := Except String (Option Result × Option String)

/-- `test_expect`. The comparison of `ngx_req.http_version` is that of a function to a number. -/
def testExpect (environment : Environment) : Returns Unit :=
  match environment.expect with
  | none => .ok (some (), none)
  | some (.table _) => .error "attempt to call method 'lower' (a nil value)"
  | some (.text expect) =>
      if expect = "" then .ok (some (), none)
      else if expect.toLower = "100-continue" then
        match environment.send "HTTP/1.1 100 Continue\r\n\r\n" with
        | some err => .ok (none, some err)
        | none => .ok (some (), none)
      else .ok (some (), none)

def chunkedReader (environment : Environment) (chunksize : Option Nat) : Returns BodyReader :=
  match environment.clientBodyReader (chunksize.getD 65536) with
  | none => .ok (none, none)
  | some reader =>
      (testExpect environment).map fun (ok, err) =>
        match ok with
        | none => (none, err)
        | some () => (some (chunked reader), none)

/-- How a body reader stops. -/
inductive Ending
  | endOfBody
  | failure (err : String) (partialBuffer : Option Bytes)

def Ending.result : Ending → ReadResult
  | .endOfBody => ⟨none, none⟩
  | .failure err partialBuffer => ⟨partialBuffer, some err⟩

/-- The reader returns the buffers, and then it stops. -/
structure Yields (reader : BodyReader) (buffers : List Bytes) (ending : Ending) : Prop where
  buffer : ∀ (calls : Nat) (more : calls < buffers.length),
    reader calls = ⟨some buffers[calls], none⟩
  stops : reader buffers.length = ending.result

/-- The strings that a reader produces in a number of calls. -/
def produced (reader : BodyReader) (calls : Nat) : List Bytes :=
  (List.range calls).filterMap fun call => (reader call).buffer

/-- What is sent upstream is a chunked body with exactly the bytes that were read, and ends with
its only last chunk. If reading fails, the last chunk is not sent. -/
def RoundTrips (reader : BodyReader) (buffers : List Bytes) : Ending → Prop
  | .endOfBody => ∀ calls, buffers.length < calls →
      let strings := produced (chunked reader) calls
      ChunkedBody strings.flatten buffers.flatten ∧
        decode strings.flatten = some (buffers.flatten, []) ∧
        strings.getLast? = some lastChunk ∧ strings.count lastChunk = 1
  | .failure _ _ => ∀ calls, calls ≤ buffers.length + 1 →
      lastChunk ∉ produced (chunked reader) calls

section Encoding

variable {buffers : List Bytes}

@[simp] theorem chunk_nil : chunk [] = lastChunk := rfl

theorem chunk_ne_lastChunk {buffer : Bytes} (nonempty : buffer ≠ []) :
    chunk buffer ≠ lastChunk := by
  intro same
  have digits := List.length_pos_iff.mpr (@numeral_ne_nil 16 buffer.length)
  have bytes := List.length_pos_iff.mpr nonempty
  have lengths := congrArg List.length same
  simp [chunk, lastChunk, crlf] at lengths
  omega

theorem chunkedBody_lastChunk : ChunkedBody lastChunk [] :=
  .last (sizeLine_numeral 0) ⟨[], rfl, by simp⟩

/-- Chunks with bytes in them carry exactly these bytes. -/
theorem chunkedBody_flatten (filled : ∀ buffer ∈ buffers, buffer ≠ []) :
    ChunkedBody (buffers.map chunk ++ [lastChunk]).flatten buffers.flatten := by
  induction buffers with
  | nil => simpa using chunkedBody_lastChunk
  | cons buffer buffers ih =>
      have rest := ih fun other member => filled other (List.mem_cons_of_mem _ member)
      have first := ChunkedBody.chunk (filled buffer List.mem_cons_self)
        (sizeLine_numeral buffer.length) rest
      simpa [chunk] using first

/-- An empty buffer ends the body before the output ends. -/
theorem exists_left_over (hollow : ¬∀ buffer ∈ buffers, buffer ≠ []) :
    ∃ body payload rest, (buffers.map chunk ++ [lastChunk]).flatten = body ++ rest ∧
      ChunkedBody body payload ∧ rest ≠ [] := by
  induction buffers with
  | nil => exact absurd (fun _ member => by cases member) hollow
  | cons buffer buffers ih =>
      by_cases empty : buffer = []
      · subst empty
        refine ⟨lastChunk, [], (buffers.map chunk ++ [lastChunk]).flatten, ?_,
          chunkedBody_lastChunk, ?_⟩
        · simp
        · simp [lastChunk]
      · have later : ¬∀ buffer ∈ buffers, buffer ≠ [] := fun filled =>
          hollow (List.forall_mem_cons.mpr ⟨empty, filled⟩)
        obtain ⟨body, payload, rest, split, wellFormed, left⟩ := ih later
        refine ⟨_, _, rest, ?_, .chunk empty (sizeLine_numeral buffer.length) wellFormed, left⟩
        rw [List.map_cons, List.cons_append, List.flatten_cons, split]
        simp [chunk]

end Encoding

namespace Yields

variable {reader : BodyReader} {buffers : List Bytes} {ending : Ending}

/-- Until the reader stops, one call of it answers one call. -/
theorem closureAfter_eq (yields : Yields reader buffers ending) {calls : Nat}
    (more : calls ≤ buffers.length) : closureAfter reader calls = ⟨false, calls⟩ := by
  induction calls with
  | zero => rfl
  | succ calls ih =>
      rw [closureAfter, ih (by omega)]
      simp [read, yields.buffer calls more]

theorem chunked_buffer (yields : Yields reader buffers ending) {calls : Nat}
    (more : calls < buffers.length) :
    chunked reader calls = ⟨some (chunk buffers[calls]), none⟩ := by
  rw [chunked, yields.closureAfter_eq more.le]
  simp [read, yields.buffer calls more]

/-- The chunks come in the order of the buffers. -/
theorem produced_buffers (yields : Yields reader buffers ending) {calls : Nat}
    (more : calls ≤ buffers.length) :
    produced (chunked reader) calls = (buffers.take calls).map chunk := by
  induction calls with
  | zero => rfl
  | succ calls ih =>
      have inner := ih (by omega)
      rw [produced] at inner
      rw [produced, List.range_succ, List.filterMap_append, inner, List.take_succ_eq_append_getElem
        more, List.map_append]
      simp [yields.chunked_buffer more]

/-- After the last chunk nothing is read or returned any more. -/
theorem closureAfter_end (yields : Yields reader buffers .endOfBody) {calls : Nat}
    (past : buffers.length < calls) :
    closureAfter reader calls = ⟨true, buffers.length + 1⟩ := by
  induction calls, past using Nat.le_induction with
  | base =>
      rw [Nat.succ_eq_add_one, closureAfter, yields.closureAfter_eq le_rfl]
      simp [read, yields.stops, Ending.result]
  | succ calls _ ih =>
      rw [closureAfter, ih]
      rfl

/-- After the last buffer the last chunk ends the body. -/
theorem produced_end (yields : Yields reader buffers .endOfBody) {calls : Nat}
    (past : buffers.length < calls) :
    produced (chunked reader) calls = buffers.map chunk ++ [lastChunk] := by
  induction calls, past using Nat.le_induction with
  | base =>
      have inner := yields.produced_buffers le_rfl
      have last : chunked reader buffers.length = ⟨some lastChunk, none⟩ := by
        rw [chunked, yields.closureAfter_eq le_rfl]
        simp [read, yields.stops, Ending.result]
      rw [List.take_length, produced] at inner
      simp [produced, List.range_succ, inner, last]
  | succ calls past ih =>
      have nothing : chunked reader calls = ⟨none, none⟩ := by
        rw [chunked, yields.closureAfter_end past]
        rfl
      rw [produced] at ih
      simp [produced, List.range_succ, ih, nothing]

/-- A failure ends the body without the last chunk. -/
theorem produced_failure {err : String} {partialBuffer : Option Bytes}
    (yields : Yields reader buffers (.failure err partialBuffer)) {calls : Nat}
    (bounded : calls ≤ buffers.length + 1) :
    produced (chunked reader) calls = (buffers.take calls).map chunk := by
  rcases Nat.lt_or_eq_of_le bounded with more | rfl
  · exact yields.produced_buffers (Nat.le_of_lt_succ more)
  · have inner := yields.produced_buffers le_rfl
    have failed : chunked reader buffers.length = ⟨none, some err⟩ := by
      rw [chunked, yields.closureAfter_eq le_rfl]
      simp [read, yields.stops, Ending.result]
    rw [List.take_length, produced] at inner
    rw [List.take_of_length_le (Nat.le_succ _)]
    simp [produced, List.range_succ, inner, failed]

end Yields

/-- The reader that returns the given buffers. -/
def readerOf (buffers : List Bytes) (ending : Ending) : BodyReader := fun calls =>
  match buffers[calls]? with
  | some buffer => ⟨some buffer, none⟩
  | none => ending.result

theorem yields_readerOf (buffers : List Bytes) (ending : Ending) :
    Yields (readerOf buffers ending) buffers ending where
  buffer calls more := by simp [readerOf, more]
  stops := by simp [readerOf]

/-- A body of buffers that are not empty is read back from its chunks. -/
theorem Yields.roundTrips {reader : BodyReader} {buffers : List Bytes} {ending : Ending}
    (yields : Yields reader buffers ending) (filled : ∀ buffer ∈ buffers, buffer ≠ []) :
    RoundTrips reader buffers ending := by
  have fresh : ∀ strings ⊆ buffers, lastChunk ∉ strings.map chunk := by
    intro strings among member
    obtain ⟨buffer, produced, same⟩ := List.mem_map.mp member
    exact chunk_ne_lastChunk (filled buffer (among produced)) same
  cases ending with
  | endOfBody =>
      intro calls past
      have wellFormed := chunkedBody_flatten filled
      dsimp only
      rw [yields.produced_end past]
      refine ⟨wellFormed, ?_, by simp, ?_⟩
      · have decoded := decode_append wellFormed []
        rwa [List.append_nil] at decoded
      · rw [List.count_append, List.count_eq_zero.mpr (fresh buffers fun _ => id)]
        simp
  | failure err partialBuffer =>
      intro calls bounded
      rw [yields.produced_failure bounded]
      exact fresh _ (List.take_subset _ _)

theorem Yields.filled {reader : BodyReader} {buffers : List Bytes} {ending : Ending}
    (yields : Yields reader buffers ending) (trips : RoundTrips reader buffers ending) :
    ∀ buffer ∈ buffers, buffer ≠ [] := by
  cases ending with
  | endOfBody =>
      by_contra hollow
      obtain ⟨body, payload, rest, split, wellFormed, left⟩ := exists_left_over hollow
      have decoded := (trips _ (Nat.lt_succ_self _)).2.1
      rw [yields.produced_end (Nat.lt_succ_self _), split, decode_append wellFormed,
        Option.some.injEq, Prod.mk.injEq] at decoded
      exact left decoded.2
  | failure err partialBuffer =>
      rintro buffer member rfl
      refine trips _ le_rfl ?_
      rw [yields.produced_failure le_rfl, List.take_of_length_le (Nat.le_succ _)]
      exact List.mem_map.mpr ⟨[], member, chunk_nil⟩

/-- **Re-encoding in chunks.** It keeps the body exactly if the underlying reader returns no empty
buffer. -/
theorem roundTrips_iff (reader : BodyReader) (buffers : List Bytes) (ending : Ending)
    (yields : Yields reader buffers ending) :
    RoundTrips reader buffers ending ↔ ∀ buffer ∈ buffers, buffer ≠ [] :=
  ⟨yields.filled, yields.roundTrips⟩

/-- Two buffers with bytes in them are sent as they are. -/
theorem roundTrips_iff_filled :
    RoundTrips (readerOf [[104, 105], [33]] .endOfBody) [[104, 105], [33]] .endOfBody :=
  (roundTrips_iff _ _ _ (yields_readerOf _ _)).mpr (by simp)

/-- The byte behind an empty buffer is sent after the end of the body. -/
theorem not_roundTrips_hollow :
    Yields (readerOf [[], [33]] .endOfBody) [[], [33]] .endOfBody ∧
      ¬RoundTrips (readerOf [[], [33]] .endOfBody) [[], [33]] .endOfBody :=
  ⟨yields_readerOf _ _, fun trips => (yields_readerOf _ _).filled trips [] (by simp) rfl⟩

end Apicast.RequestReader
