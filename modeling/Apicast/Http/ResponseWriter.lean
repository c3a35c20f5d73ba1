import Apicast.Foundation.FallibleLoop
import Apicast.Http.Headers
import Apicast.Http.RequestReader

/-!
# Relaying an upstream response

A response is either written to a socket by hand or handed to nginx. The first way concatenates
each header with its value, which raises an error for the table of a repeated header, and takes an
empty chunk for a failed write. The second one sets the headers in nginx, which also replaces the
underscores in their names and clears a header whose value is empty. Where none of this matters the
client receives the same.
-/

namespace Apicast.ResponseWriter

open Foundation Bytes Lines Numeral Headers RequestReader

/-- The value of a header, a table when the header is repeated. -/
inductive HeaderValue
  | text (value : Bytes)
  | table (values : List Bytes)

def HeaderValue.values : HeaderValue → List Bytes
  | .text value => [value]
  | .table values => values

def colon : UInt8 := 58

def underscore : UInt8 := 95

def isBlank (byte : UInt8) : Bool := byte = 32 || byte = 9

/-- A name as it is read from a header line. -/
structure IsName (name : Bytes) : Prop where
  nonempty : name ≠ []
  unbroken : Unbroken name
  free : colon ∉ name

/-- A value as it is read from a header line, without the blanks in front of it. -/
structure IsValue (value : Bytes) : Prop where
  unbroken : Unbroken value
  trimmed : ∀ byte ∈ value.head?, isBlank byte = false

/-- A response of the client library. Its headers are the pairs of a table in which case does not
count. -/
structure Response where
  status : Nat
  reason : Bytes
  headers : List (Bytes × HeaderValue)
  bodyReader : Option (Nat → BodyReader)
  unbroken : Unbroken reason
  named : ∀ header ∈ headers, IsName header.1
  valued : ∀ header ∈ headers, ∀ value ∈ header.2.values, IsValue value
  distinct : headers.Pairwise fun first second => first.1.map lowerByte ≠ second.1.map lowerByte

/-- What relaying uses of the client connection and of nginx. -/
structure Client where
  /-- The error of the write to the socket after a number of writes. -/
  write : Nat → Option String
  /-- The error of `ngx.print` after a number of calls. -/
  print : Nat → Option String
  /-- The standard headers that take one value only. -/
  singleValued : Bytes → Bool

/-- `HOP_BY_HOP_HEADERS` -/
def hopByHopHeaders : List Bytes :=
  [ascii "connection", ascii "keep-alive", ascii "proxy-authenticate",
    ascii "proxy-authorization", ascii "te", ascii "trailers", ascii "transfer-encoding",
    ascii "upgrade", ascii "content-length"]

/-- The headers that are relayed. -/
def kept (response : Response) : List (Bytes × HeaderValue) :=
  response.headers.filter fun header => header.1.map lowerByte ∉ hopByHopHeaders

/-- Read chunk after chunk and pass them on, until there is no more. -/
def forwardBody {State : Type} (reader : BodyReader)
    (cb : Bytes → State → Option String × State) :
    (fuel calls : Nat) → State → Option (Option String × State)
  | 0, _, _ => none
  | fuel + 1, calls, state =>
      let result := reader calls
      match result.err with
      | some err => some (some ("failed to read response body: " ++ err), state)
      | none =>
          match result.buffer with
          | none => some (none, state)
          | some buffer =>
              match cb buffer state with
              | (some err, state) => some (some ("failed to send response body: " ++ err), state)
              | (none, state) => forwardBody reader cb fuel (calls + 1) state

/-- `forward_body`, with the reader for the size of the chunks. -/
def forward {State : Type} (bodyReader : Option (Nat → BodyReader)) (chunksize : Option Nat)
    (cb : Bytes → State → Option String × State) (fuel : Nat) (state : State) :
    Option (Option String × State) :=
  match bodyReader with
  | none => some (some "no body reader", state)
  | some reader => forwardBody (reader (chunksize.getD 65536)) cb fuel 0 state

/-! ### Writing to the socket -/

def statusLine (response : Response) : Bytes :=
  ascii "HTTP/1.1 " ++ (padded 10 3 response.status ++ 32 :: response.reason)

/-- A table cannot be concatenated. -/
def headerLine : Bytes × HeaderValue → Except String Bytes
  | (name, .text value) => .ok (name ++ ascii ": " ++ value)
  | (_, .table _) => .error "attempt to concatenate local 'v' (a table value)"

/-- The status line and the headers, up to the empty line. -/
def head (response : Response) : Except String Bytes :=
  ((kept response).mapM headerLine).map fun lines => block (statusLine response :: lines)

/-- `send`, whose caller takes nothing for a failure. -/
def sendChunk (client : Client) (chunk : Bytes) (sent : List Bytes) : Option String × List Bytes :=
  if chunk = [] then (some "failed to send response body, err: unknown", sent)
  else
    match client.write sent.length with
    | some err => (some ("failed to send response body, err: " ++ err), sent)
    | none => (none, sent ++ [chunk])

/-- `_M.send_response`, and what was sent. -/
def sendResponse (client : Option Client) (response : Option Response) (chunksize : Option Nat)
    (fuel : Nat) : Option (Except String (Option String) × List Bytes) :=
  match response, client with
  | none, _ => some (.ok none, [])
  | some _, none => some (.ok (some "socket not initialized yet"), [])
  | some response, some client =>
      match head response with
      | .error message => some (.error message, [])
      | .ok head =>
          match client.write 0 with
          | some err => some (.ok (some ("failed to send headers, err: " ++ err)), [])
          | none =>
              (forward response.bodyReader (some (chunksize.getD 65536)) (sendChunk client) fuel
                [head]).map fun (err, sent) => (.ok err, sent)

/-! ### Handing to nginx -/

/-- The response of nginx. -/
structure Ngx where
  status : Nat
  fields : List (Bytes × Bytes)
  printed : List Bytes

/-- Assigning to `ngx.header` replaces the header, with dashes for the underscores of its name.
Only the last value of a standard header that takes one value counts, and an empty value leaves
nothing of the header. -/
def setHeader (client : Client) (fields : List (Bytes × Bytes)) (header : Bytes × HeaderValue) :
    List (Bytes × Bytes) :=
  let name := header.1.map dash
  let values :=
    match header.2 with
    | .text value => [value]
    | .table values => if client.singleValued name then values.getLast?.toList else values
  fields.filter (fun field => field.1.map lowerByte ≠ name.map lowerByte) ++
    (values.filter (· ≠ [])).map fun value => (name, value)

/-- `send_chunk` -/
def printChunk (client : Client) (chunk : Bytes) (ngx : Ngx) : Option String × Ngx :=
  match client.print ngx.printed.length with
  | some err => (some ("output response failed: " ++ err), ngx)
  | none => (none, { ngx with printed := ngx.printed ++ [chunk] })

/-- `_M.proxy_response` -/
def proxyResponse (client : Client) (response : Option Response) (chunksize : Option Nat)
    (fuel : Nat) (ngx : Ngx) : Option (Option String × Ngx) :=
  match response with
  | none => some (none, ngx)
  | some response =>
      forward response.bodyReader chunksize (printChunk client) fuel
        { ngx with
          status := response.status
          fields := (kept response).foldl (setHeader client) ngx.fields }

/-! ### Receiving -/

/-- A response as its receiver reads it. -/
structure Relayed where
  status : Nat
  fields : List (Bytes × Bytes)
  body : Bytes

def parseStatus (line : Bytes) : Option Nat :=
  if line.take 9 = ascii "HTTP/1.1 " then
    let (values, rest) := takeDigits 10 (line.drop 9)
    if values ≠ [] ∧ rest.head? = some 32 then some (number 10 values) else none
  else none

def parseField (line : Bytes) : Option (Bytes × Bytes) :=
  let name := line.takeWhile (· ≠ colon)
  if name = line then none
  else some (name, (line.drop (name.length + 1)).dropWhile isBlank)

/-- The status line and the fields, up to an empty line, and the body up to the end. -/
def parse (bytes : Bytes) : Option Relayed :=
  (takeBlock bytes.length bytes).bind fun (lines, body) =>
    match lines with
    | [] => none
    | statusLine :: fieldLines =>
        (parseStatus statusLine).bind fun status =>
          (fieldLines.mapM parseField).map fun fields => { status, fields, body }

/-- Both ways succeed, and the client receives the same status, fields and body. -/
def Agree (client : Client) (response : Response) (chunksize : Option Nat)
    (chunks : List Bytes) : Prop :=
  ∀ fuel, chunks.length < fuel → ∃ sent ngx relayed,
    sendResponse (some client) (some response) chunksize fuel = some (.ok none, sent) ∧
      proxyResponse client (some response) chunksize fuel ⟨200, [], []⟩ = some (none, ngx) ∧
      parse sent.flatten = some relayed ∧ relayed.status = ngx.status ∧
      relayed.fields.Perm ngx.fields ∧ relayed.body = ngx.printed.flatten

/-- No write to the client fails. -/
structure Client.Accepts (client : Client) : Prop where
  write : ∀ writes, client.write writes = none
  print : ∀ calls, client.print calls = none

/-! ### Chunks -/

/-- The loop over the chunks of a reader. -/
def forwardChunks {State : Type} (cb : Bytes → State → Option String × State) :
    List Bytes → State → Option String × State
  | [], state => (none, state)
  | chunk :: chunks, state =>
      match cb chunk state with
      | (some err, state) => (some ("failed to send response body: " ++ err), state)
      | (none, state) => forwardChunks cb chunks state

section Chunks

variable {State : Type} {cb : Bytes → State → Option String × State} {reader : BodyReader}
  {chunks : List Bytes} {client : Client}

theorem forwardBody_eq (yields : Yields reader chunks .endOfBody) {fuel calls : Nat}
    (more : calls ≤ chunks.length) (enough : chunks.length - calls < fuel) (state : State) :
    forwardBody reader cb fuel calls state =
      some (forwardChunks cb (chunks.drop calls) state) := by
  induction fuel generalizing calls state with
  | zero => omega
  | succ fuel ih =>
      rcases Nat.lt_or_eq_of_le more with inside | rfl
      · rw [forwardBody, yields.buffer calls inside, List.drop_eq_getElem_cons inside,
          forwardChunks]
        dsimp only
        rcases cb chunks[calls] state with ⟨err | err, after⟩
        · exact ih inside (by omega) after
        · rfl
      · rw [forwardBody, yields.stops, List.drop_length]
        rfl

/-- With nginx, every chunk is printed. -/
theorem forwardChunks_printChunk (accepts : client.Accepts) (ngx : Ngx) :
    forwardChunks (printChunk client) chunks ngx =
      (none, { ngx with printed := ngx.printed ++ chunks }) := by
  induction chunks generalizing ngx with
  | nil => simp [forwardChunks]
  | cons chunk chunks ih => simp [forwardChunks, printChunk, accepts.print, ih]

/-- On the socket, chunks with bytes in them are written. -/
theorem forwardChunks_sendChunk (accepts : client.Accepts)
    (filled : ∀ chunk ∈ chunks, chunk ≠ []) (sent : List Bytes) :
    forwardChunks (sendChunk client) chunks sent = (none, sent ++ chunks) := by
  induction chunks generalizing sent with
  | nil => simp [forwardChunks]
  | cons chunk chunks ih =>
      obtain ⟨first, rest⟩ := List.forall_mem_cons.mp filled
      simp [forwardChunks, sendChunk, first, accepts.write, ih rest]

/-- An empty chunk makes the loop fail. -/
theorem filled_of_forwardChunks {sent after : List Bytes}
    (succeeded : forwardChunks (sendChunk client) chunks sent = (none, after)) :
    ∀ chunk ∈ chunks, chunk ≠ [] := by
  induction chunks generalizing sent with
  | nil => simp
  | cons chunk chunks ih =>
      rw [forwardChunks] at succeeded
      by_cases empty : chunk = []
      · simp [sendChunk, empty] at succeeded
      · rw [sendChunk, if_neg empty] at succeeded
        cases failed : client.write sent.length with
        | some err => simp [failed] at succeeded
        | none =>
            rw [failed] at succeeded
            exact List.forall_mem_cons.mpr ⟨empty, ih succeeded⟩

end Chunks

/-! ### Headers -/

section Fields

/-- A header with a single value. -/
def single (field : Bytes × Bytes) : Bytes × HeaderValue := (field.1, .text field.2)

/-- The line of a field. -/
def fieldLine (field : Bytes × Bytes) : Bytes := field.1 ++ ascii ": " ++ field.2

variable {headers : List (Bytes × HeaderValue)} {fields : List (Bytes × Bytes)}

theorem mapM_headerLine (fields : List (Bytes × Bytes)) :
    (fields.map single).mapM headerLine = .ok (fields.map fieldLine) := by
  rw [List.mapM_map]
  exact List.mapM_pure

/-- Headers whose lines can be written have single values. -/
theorem text_of_mapM {lines : List Bytes} (written : headers.mapM headerLine = .ok lines) :
    ∀ header ∈ headers, ∃ value, header.2 = .text value := by
  induction headers generalizing lines with
  | nil => simp
  | cons header headers ih =>
      rw [List.mapM_cons] at written
      obtain ⟨line, first, rest⟩ := FallibleLoop.bind_eq_ok.mp written
      obtain ⟨others, later, -⟩ := FallibleLoop.bind_eq_ok.mp rest
      refine List.forall_mem_cons.mpr ⟨?_, ih later⟩
      rcases header with ⟨name, value | values⟩
      · exact ⟨value, rfl⟩
      · cases first

theorem exists_fields (text : ∀ header ∈ headers, ∃ value, header.2 = .text value) :
    ∃ fields, headers = List.map single fields := by
  induction headers with
  | nil => exact ⟨[], rfl⟩
  | cons header headers ih =>
      obtain ⟨⟨value, own⟩, rest⟩ := List.forall_mem_cons.mp text
      obtain ⟨fields, rfl⟩ := ih rest
      exact ⟨(header.1, value) :: fields, by rw [List.map_cons, single, ← own]⟩

/-- A field is read back from its line. -/
theorem parseField_fieldLine {field : Bytes × Bytes} (name : IsName field.1)
    (value : IsValue field.2) : parseField (fieldLine field) = some field := by
  have shape : fieldLine field = field.1 ++ colon :: 32 :: field.2 := by
    simp only [fieldLine, List.append_assoc]
    rfl
  have whole : (fieldLine field).takeWhile (· ≠ colon) = field.1 := by
    rw [shape, List.takeWhile_append_of_pos]
    · simp
    · intro byte member
      simpa using fun same : byte = colon => name.free (same ▸ member)
  have longer : field.1 ≠ fieldLine field := by
    intro same
    have lengths := congrArg List.length same
    simp [shape] at lengths
  have after : (fieldLine field).drop (field.1.length + 1) = 32 :: field.2 := by
    rw [shape, ← List.drop_drop, List.drop_left]
    rfl
  have trimmed : (32 :: field.2).dropWhile isBlank = field.2 := by
    rw [List.dropWhile_cons_of_pos (by decide)]
    cases rest : field.2 with
    | nil => rfl
    | cons byte bytes =>
        have visible := value.trimmed byte (by rw [rest]; rfl)
        rw [List.dropWhile_cons_of_neg (by simp [visible])]
  rw [parseField, whole, if_neg longer, after, trimmed]

theorem mapM_parseField
    (parsed : ∀ field ∈ fields, parseField (fieldLine field) = some field) :
    (fields.map fieldLine).mapM parseField = some fields := by
  induction fields with
  | nil => rfl
  | cons field fields ih =>
      obtain ⟨first, rest⟩ := List.forall_mem_cons.mp parsed
      simp [List.mapM_cons, first, ih rest]

/-- The status is read back from the status line. -/
theorem parseStatus_statusLine (response : Response) :
    parseStatus (statusLine response) = some response.status := by
  obtain ⟨values, denote, stands⟩ :=
    @exists_denote_padded 10 (by omega) (by omega) 3 response.status
  have digits : takeDigits 10 (padded 10 3 response.status ++ 32 :: response.reason) =
      (values, 32 :: response.reason) := takeDigits_append denote (by simp; decide)
  have found : values ≠ [] := by
    rintro rfl
    have empty := List.forall₂_nil_right_iff.mp denote
    simp [padded, numeral_ne_nil] at empty
  have start : (statusLine response).take 9 = ascii "HTTP/1.1 " := rfl
  have rest : (statusLine response).drop 9 =
      padded 10 3 response.status ++ 32 :: response.reason := rfl
  rw [parseStatus, if_pos start, rest, digits]
  dsimp only
  rw [if_pos ⟨found, rfl⟩, stands]

/-- Fields with names of their own and a value are all set. -/
theorem foldl_setHeader (client : Client) {set : List (Bytes × Bytes)}
    (plain : ∀ field ∈ fields, underscore ∉ field.1) (valued : ∀ field ∈ fields, field.2 ≠ [])
    (distinct : (set ++ fields).Pairwise fun first second =>
      first.1.map lowerByte ≠ second.1.map lowerByte) :
    (fields.map single).foldl (setHeader client) set = set ++ fields := by
  induction fields generalizing set with
  | nil => simp
  | cons field fields ih =>
      obtain ⟨first, rest⟩ := List.forall_mem_cons.mp plain
      obtain ⟨value, values⟩ := List.forall_mem_cons.mp valued
      have name : field.1.map dash = field.1 := by
        have same : ∀ byte ∈ field.1, dash byte = id byte := fun byte member =>
          if_neg fun (equal : byte = underscore) => first (equal ▸ member)
        rw [List.map_congr_left same, List.map_id]
      have untouched :
          set.filter (fun other => other.1.map lowerByte ≠ field.1.map lowerByte) = set := by
        refine List.filter_eq_self.mpr fun other member => ?_
        simpa using (List.pairwise_append.mp distinct).2.2 other member field List.mem_cons_self
      have added : setHeader client set (single field) = set ++ [field] := by
        have kept : [field.2].filter (· ≠ []) = [field.2] := by
          rw [List.filter_cons_of_pos (by simpa using value), List.filter_nil]
        simp only [setHeader, single, name, untouched, kept, List.map_cons, List.map_nil]
      rw [List.map_cons, List.foldl_cons, added, ih rest values (by simpa using distinct),
        List.append_assoc]
      rfl

/-- No name that nginx sends has an underscore. -/
theorem underscore_not_mem_setHeader (client : Client) {set : List (Bytes × Bytes)}
    (plain : ∀ field ∈ set, underscore ∉ field.1) :
    ∀ field ∈ headers.foldl (setHeader client) set, underscore ∉ field.1 := by
  induction headers generalizing set with
  | nil => exact plain
  | cons header headers ih =>
      refine ih ?_
      intro field member
      rcases List.mem_append.mp member with before | added
      · exact plain field (List.mem_of_mem_filter before)
      · obtain ⟨value, -, rfl⟩ := List.mem_map.mp added
        intro named
        obtain ⟨byte, -, dashed⟩ := List.mem_map.mp named
        unfold dash underscore at dashed
        grind

/-- No value that nginx sends is empty. -/
theorem ne_nil_of_mem_setHeader (client : Client) {set : List (Bytes × Bytes)}
    (valued : ∀ field ∈ set, field.2 ≠ []) :
    ∀ field ∈ headers.foldl (setHeader client) set, field.2 ≠ [] := by
  induction headers generalizing set with
  | nil => exact valued
  | cons header headers ih =>
      refine ih ?_
      intro field member
      rcases List.mem_append.mp member with before | added
      · exact valued field (List.mem_of_mem_filter before)
      · obtain ⟨value, kept, rfl⟩ := List.mem_map.mp added
        exact of_decide_eq_true (List.mem_filter.mp kept).2

end Fields

/-! ### Both ways -/

/-- The relayed headers are single values under names without underscores, and all values and
chunks have bytes in them. -/
structure Plain (response : Response) (chunks : List Bytes) : Prop where
  text : ∀ header ∈ kept response, ∃ value, header.2 = .text value
  valued : ∀ header ∈ kept response, header.2 ≠ .text []
  dashed : ∀ header ∈ kept response, underscore ∉ header.1
  filled : ∀ chunk ∈ chunks, chunk ≠ []

section Relaying

variable {client : Client} {response : Response} {chunksize : Option Nat} {chunks : List Bytes}
  {fields : List (Bytes × Bytes)}

theorem unbroken_statusLine (response : Response) : Unbroken (statusLine response) := by
  obtain ⟨values, denote, -⟩ :=
    @exists_denote_padded 10 (by omega) (by omega) 3 response.status
  have digits : Unbroken (padded 10 3 response.status) := by
    intro byte member
    obtain ⟨value, found⟩ := denote.exists_value byte member
    constructor
    · rintro rfl
      cases found
    · rintro rfl
      cases found
  have blank : Unbroken (32 :: response.reason) :=
    List.forall_mem_cons.mpr ⟨by decide, response.unbroken⟩
  exact unbroken_append.mpr ⟨unbroken_of_all (by decide), unbroken_append.mpr ⟨digits, blank⟩⟩

theorem unbroken_fieldLine {field : Bytes × Bytes} (name : IsName field.1)
    (value : IsValue field.2) : fieldLine field ≠ [] ∧ Unbroken (fieldLine field) := by
  refine ⟨by simp [fieldLine, name.nonempty], unbroken_append.mpr ⟨?_, value.unbroken⟩⟩
  exact unbroken_append.mpr ⟨name.unbroken, unbroken_of_all (by decide)⟩

/-- What the receiver reads of a response that is written to the socket. -/
theorem parse_head (shape : kept response = fields.map single) (body : Bytes) :
    parse (block (statusLine response :: fields.map fieldLine) ++ body) =
      some ⟨response.status, fields, body⟩ := by
  have among : ∀ field ∈ fields, single field ∈ response.headers := by
    intro field member
    have keptField : single field ∈ kept response := shape ▸ List.mem_map_of_mem member
    exact List.mem_of_mem_filter keptField
  have names : ∀ field ∈ fields, IsName field.1 := fun field member =>
    response.named _ (among field member)
  have values : ∀ field ∈ fields, IsValue field.2 := fun field member =>
    response.valued _ (among field member) _ (List.mem_singleton.mpr rfl)
  have unbroken : ∀ line ∈ statusLine response :: fields.map fieldLine,
      line ≠ [] ∧ Unbroken line := by
    refine List.forall_mem_cons.mpr ⟨⟨?_, unbroken_statusLine response⟩, ?_⟩
    · exact List.append_ne_nil_of_left_ne_nil (by decide) _
    · intro line member
      obtain ⟨field, known, rfl⟩ := List.mem_map.mp member
      exact unbroken_fieldLine (names field known) (values field known)
  have enough : (statusLine response :: fields.map fieldLine).length <
      (block (statusLine response :: fields.map fieldLine) ++ body).length := by
    have := @length_lt_length_block (statusLine response :: fields.map fieldLine)
    rw [List.length_append]
    omega
  have read := @takeBlock_append body _ unbroken _ enough
  rw [parse, read, Option.bind_some]
  dsimp only
  rw [parseStatus_statusLine, Option.bind_some, mapM_parseField fun field member =>
    parseField_fieldLine (names field member) (values field member), Option.map_some]

theorem proxyResponse_eq (accepts : client.Accepts) {reader : Nat → BodyReader}
    (has : response.bodyReader = some reader)
    (yields : Yields (reader (chunksize.getD 65536)) chunks .endOfBody) {fuel : Nat}
    (enough : chunks.length < fuel) (ngx : Ngx) :
    proxyResponse client (some response) chunksize fuel ngx =
      some (none, ⟨response.status, (kept response).foldl (setHeader client) ngx.fields,
        ngx.printed ++ chunks⟩) := by
  rw [proxyResponse, has, forward, forwardBody_eq yields (Nat.zero_le _) (by omega),
    List.drop_zero, forwardChunks_printChunk accepts]

/-- What is left of writing a response after its head. -/
theorem sendResponse_eq (accepts : client.Accepts) {reader : Nat → BodyReader}
    (has : response.bodyReader = some reader)
    (yields : Yields (reader (chunksize.getD 65536)) chunks .endOfBody) {fuel : Nat}
    (enough : chunks.length < fuel) {bytes : Bytes} (written : head response = .ok bytes) :
    sendResponse (some client) (some response) chunksize fuel =
      some (.ok (forwardChunks (sendChunk client) chunks [bytes]).1,
        (forwardChunks (sendChunk client) chunks [bytes]).2) := by
  rw [sendResponse, written]
  dsimp only
  rw [accepts.write, has, forward]
  dsimp only
  rw [Option.getD_some, forwardBody_eq yields (Nat.zero_le _) (by omega), List.drop_zero,
    Option.map_some]

theorem head_eq (shape : kept response = fields.map single) :
    head response = .ok (block (statusLine response :: fields.map fieldLine)) := by
  rw [head, shape, mapM_headerLine]
  rfl

theorem Plain.agree (plain : Plain response chunks) (accepts : client.Accepts)
    {reader : Nat → BodyReader} (has : response.bodyReader = some reader)
    (yields : Yields (reader (chunksize.getD 65536)) chunks .endOfBody) :
    Agree client response chunksize chunks := by
  obtain ⟨fields, shape⟩ := exists_fields plain.text
  have distinct : fields.Pairwise fun first second =>
      first.1.map lowerByte ≠ second.1.map lowerByte := by
    have apart : (kept response).Pairwise fun first second =>
        first.1.map lowerByte ≠ second.1.map lowerByte :=
      response.distinct.sublist List.filter_sublist
    rw [shape, List.pairwise_map] at apart
    exact apart
  have dashed : ∀ field ∈ fields, underscore ∉ field.1 := fun field member =>
    plain.dashed (single field) (shape ▸ List.mem_map_of_mem member)
  have valued : ∀ field ∈ fields, field.2 ≠ [] := fun field member empty =>
    plain.valued (single field) (shape ▸ List.mem_map_of_mem member) (congrArg _ empty)
  intro fuel enough
  refine ⟨[block (statusLine response :: fields.map fieldLine)] ++ chunks,
    ⟨response.status, fields, chunks⟩, ⟨response.status, fields, chunks.flatten⟩,
    ?_, ?_, ?_, rfl, List.Perm.refl _, rfl⟩
  · rw [sendResponse_eq accepts has yields enough (head_eq shape),
      forwardChunks_sendChunk accepts plain.filled]
  · rw [proxyResponse_eq accepts has yields enough, shape,
      foldl_setHeader client dashed valued (by simpa using distinct)]
    rfl
  · rw [List.flatten_append, List.flatten_singleton]
    exact parse_head shape _

/-- What is sent before the body is one line for each header that is kept. -/
theorem exists_lines_of_head {bytes : Bytes} (written : head response = .ok bytes) :
    ∃ lines, (kept response).mapM headerLine = .ok lines ∧
      block (statusLine response :: lines) = bytes := by
  rw [head] at written
  cases mapped : (kept response).mapM headerLine with
  | error message =>
      rw [mapped] at written
      cases written
  | ok lines =>
      rw [mapped] at written
      exact ⟨lines, rfl, Except.ok.inj written⟩

/-- Where both ways agree, the response is plain. -/
theorem Agree.plain (agree : Agree client response chunksize chunks) (accepts : client.Accepts)
    {reader : Nat → BodyReader} (has : response.bodyReader = some reader)
    (yields : Yields (reader (chunksize.getD 65536)) chunks .endOfBody) :
    Plain response chunks := by
  obtain ⟨sent, ngx, relayed, wrote, proxied, parsed, -, same, -⟩ :=
    agree (chunks.length + 1) (Nat.lt_succ_self _)
  cases written : head response with
  | error message =>
      rw [sendResponse, written] at wrote
      cases wrote
  | ok bytes =>
      rw [sendResponse_eq accepts has yields (Nat.lt_succ_self _) written, Option.some.injEq,
        Prod.mk.injEq, Except.ok.injEq] at wrote
      obtain ⟨succeeded, rfl⟩ := wrote
      have filled := filled_of_forwardChunks (Prod.ext succeeded rfl)
      obtain ⟨lines, mapped, rfl⟩ := exists_lines_of_head written
      have text := text_of_mapM mapped
      obtain ⟨fields, shape⟩ := exists_fields text
      rw [shape, mapM_headerLine, Except.ok.injEq] at mapped
      rw [← mapped, forwardChunks_sendChunk accepts filled, List.flatten_append,
        List.flatten_singleton, parse_head shape, Option.some.injEq] at parsed
      rw [proxyResponse_eq accepts has yields (Nat.lt_succ_self _), Option.some.injEq,
        Prod.mk.injEq] at proxied
      have received : ∀ header ∈ kept response, ∃ field, header = single field ∧
          field ∈ (kept response).foldl (setHeader client) [] := by
        intro header member
        rw [shape] at member
        obtain ⟨field, known, rfl⟩ := List.mem_map.mp member
        have relayedField : field ∈ ngx.fields := same.mem_iff.mp (parsed ▸ known)
        rw [← proxied.2] at relayedField
        exact ⟨field, rfl, relayedField⟩
      refine ⟨text, fun header member empty => ?_, fun header member => ?_, filled⟩
      · obtain ⟨field, rfl, relayedField⟩ := received header member
        exact ne_nil_of_mem_setHeader client (by simp) field relayedField
          (HeaderValue.text.inj empty)
      · obtain ⟨field, rfl, relayedField⟩ := received header member
        exact underscore_not_mem_setHeader client (by simp) field relayedField

end Relaying

/-- **Both ways of relaying.** For a client that accepts all writes, they agree exactly if the
relayed headers have single values that are not empty and names without underscores, and no chunk
is empty. -/
theorem relaying_agrees_iff (client : Client) (accepts : client.Accepts) (response : Response)
    (reader : Nat → BodyReader) (has : response.bodyReader = some reader)
    (chunksize : Option Nat) (chunks : List Bytes)
    (yields : Yields (reader (chunksize.getD 65536)) chunks .endOfBody) :
    Agree client response chunksize chunks ↔ Plain response chunks :=
  ⟨fun agree => agree.plain accepts has yields, fun plain => plain.agree accepts has yields⟩

theorem isValue_of_all {value : Bytes}
    (unbroken : value.all (fun byte => byte ≠ cr && byte ≠ lf) = true)
    (visible : value.head?.all (fun byte => !isBlank byte) = true) : IsValue value := by
  refine ⟨unbroken_of_all unbroken, fun byte head => ?_⟩
  simpa [Option.mem_def.mp head] using visible

/-- A client that accepts everything. -/
def acceptingClient : Client where
  write _ := none
  print _ := none
  singleValued _ := false

theorem accepts_acceptingClient : acceptingClient.Accepts := ⟨fun _ => rfl, fun _ => rfl⟩

/-- A response that was received with headers and chunks. -/
def responseWith (headers : List (Bytes × HeaderValue))
    (named : ∀ header ∈ headers, IsName header.1)
    (valued : ∀ header ∈ headers, ∀ value ∈ header.2.values, IsValue value)
    (distinct : headers.Pairwise fun first second =>
      first.1.map lowerByte ≠ second.1.map lowerByte) (chunks : List Bytes) : Response where
  status := 200
  reason := ascii "OK"
  headers
  bodyReader := some fun _ => readerOf chunks .endOfBody
  unbroken := unbroken_of_all (by decide)
  named
  valued
  distinct

/-- A repeated header. -/
def repeated : Response :=
  responseWith [(ascii "Set-Cookie", .table [ascii "a=1", ascii "b=2"])]
    (List.forall_mem_singleton.mpr ⟨by decide, unbroken_of_all (by decide), by decide⟩)
    (List.forall_mem_singleton.mpr (List.forall_mem_cons.mpr
      ⟨isValue_of_all (by decide) (by decide),
        List.forall_mem_singleton.mpr (isValue_of_all (by decide) (by decide))⟩))
    (List.pairwise_singleton _ _) []

/-- The table of a repeated header is not written to the socket. -/
theorem not_agree_repeated : ¬Agree acceptingClient repeated none [] := by
  intro agree
  obtain ⟨sent, ngx, relayed, wrote, -⟩ := agree 1 Nat.one_pos
  cases wrote

/-- A field with a name and a value that can be read back. -/
theorem isName_and_isValue {name value : Bytes} (nonempty : name ≠ [])
    (unbroken : name.all (fun byte => byte ≠ cr && byte ≠ lf) = true) (free : colon ∉ name)
    (valueUnbroken : value.all (fun byte => byte ≠ cr && byte ≠ lf) = true)
    (visible : value.head?.all (fun byte => !isBlank byte) = true) :
    IsName name ∧ ∀ read ∈ (HeaderValue.text value).values, IsValue read :=
  ⟨⟨nonempty, unbroken_of_all unbroken, free⟩,
    List.forall_mem_singleton.mpr (isValue_of_all valueUnbroken visible)⟩

/-- The headers of a text, one of which is only about the connection to the upstream. -/
def textHeaders : List (Bytes × HeaderValue) :=
  [(ascii "Content-Type", .text (ascii "text/plain")), (ascii "Connection", .text (ascii "close")),
    (ascii "X-Request-Id", .text (ascii "7"))]

theorem readable_textHeaders : ∀ header ∈ textHeaders,
    IsName header.1 ∧ ∀ value ∈ header.2.values, IsValue value := by
  refine List.forall_mem_cons.mpr ⟨?_, List.forall_mem_cons.mpr
    ⟨?_, List.forall_mem_singleton.mpr ?_⟩⟩
  · exact isName_and_isValue (by decide) (by decide) (by decide) (by decide) (by decide)
  · exact isName_and_isValue (by decide) (by decide) (by decide) (by decide) (by decide)
  · exact isName_and_isValue (by decide) (by decide) (by decide) (by decide) (by decide)

/-- A response with several headers and a body of two chunks. -/
def plainText : Response :=
  responseWith textHeaders (fun header member => (readable_textHeaders header member).1)
    (fun header member => (readable_textHeaders header member).2) (by decide)
    [ascii "hello", ascii " world"]

theorem agree_plainText :
    Agree acceptingClient plainText none [ascii "hello", ascii " world"] := by
  refine (relaying_agrees_iff acceptingClient accepts_acceptingClient plainText
    (fun _ => readerOf [ascii "hello", ascii " world"] .endOfBody) rfl none
    [ascii "hello", ascii " world"] (yields_readerOf _ _)).mpr ?_
  have relayed : kept plainText = [(ascii "Content-Type", .text (ascii "text/plain")),
      (ascii "X-Request-Id", .text (ascii "7"))] := rfl
  refine ⟨?_, ?_, ?_, by decide⟩
  · rw [relayed]
    exact List.forall_mem_cons.mpr ⟨⟨_, rfl⟩, List.forall_mem_singleton.mpr ⟨_, rfl⟩⟩
  · rw [relayed]
    refine List.forall_mem_cons.mpr ⟨?_, List.forall_mem_singleton.mpr ?_⟩
    · exact fun empty => List.cons_ne_nil _ _ (HeaderValue.text.inj empty)
    · exact fun empty => List.cons_ne_nil _ _ (HeaderValue.text.inj empty)
  · rw [relayed]
    exact List.forall_mem_cons.mpr ⟨by decide, List.forall_mem_singleton.mpr (by decide)⟩

end Apicast.ResponseWriter
