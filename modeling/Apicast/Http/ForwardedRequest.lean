import Apicast.Foundation.Number
import Apicast.Http.HeaderTables
import Apicast.Http.RequestReader

/-!
# Requests that are forwarded through an HTTPS proxy

The body of the client is taken from its socket, from memory or from a file, and the headers are
those of the client, with a few of the gateway's own. The body arrives when what the headers say of
it fits what is sent: the whole body if it is read at all, and otherwise none, which fits only the
headers of a request without one.
-/

namespace Apicast

open Foundation

namespace ForwardedRequest

open ChunkedCoding RequestReader HeadersPolicy HeaderTables

def httpMethodsWithBody : List String := ["POST", "PUT", "PATCH"]

def defaultChunksize : Nat := 32 * 1024

/-- What the function uses of nginx, of the HTTP client and of the files. -/
structure Environment where
  method : String
  /-- `ngx.req.http_version`, in tenths. -/
  httpVersion : Nat
  /-- The headers of the client, no more than the hundred that `ngx.req.get_headers` reads. -/
  headers : Lines
  /-- `ngx.req.socket`, raw or not, and what `httpc:get_client_body_reader` returns for it. -/
  socket : Bool → Except String (Nat → Option BodyReader)
  /-- The error of `sock:send`, if it fails. -/
  send : String → Option String
  /-- The headers after `ngx.req.read_body`. -/
  readBody : Lines
  bodyData : Option Bytes
  bodyFile : Option String
  openFile : String → Except String Bytes
  remoteAddr : String
  secretToken : Option String
  uri : Option String
  isArgs : Option String
  queryString : Option String

inductive Body
  | none
  | text (data : Bytes)
  | reader (reader : BodyReader)

/-- What is given to `httpc:request`. -/
structure Parameters where
  method : String
  headers : RawHeaders
  path : String
  body : Body

/-- The request is answered with an error, or goes on. -/
inductive Attempt (Result : Type)
  | exit (status : Nat)
  | proceeds (result : Result)

/-- `value and value:lower() == expected` -/
def lowerEquals (value : Option HeaderValue) (expected : String) : Except String Bool :=
  match value with
  | none => .ok false
  | some (.text text) => .ok (lower text = expected)
  | some (.table _) => .error "attempt to call method 'lower' (a nil value)"

/-- `get_client_body_reader` -/
def getClientBodyReader (environment : Environment) (reader : Nat → Option BodyReader)
    (isChunked : Bool) : Returns BodyReader :=
  if isChunked then
    chunkedReader ⟨reader, environment.headers.named "Expect", environment.send⟩
      (some defaultChunksize)
  else .ok (reader defaultChunksize, none)

/-- The body is taken from the socket of the client. -/
def socketBody (environment : Environment) (isChunked : Bool) :
    Except String (Attempt (Body × Lines)) :=
  match environment.socket isChunked with
  | .error _ => .ok (.exit 500)
  | .ok reader =>
      (getClientBodyReader environment reader isChunked).map fun (body, _) =>
        .proceeds (body.elim .none .reader, environment.headers)

/-- `file_reader`, which reads 8 kB at a time. -/
def fileReader (content : Bytes) : BodyReader := fun calls =>
  let chunk := (content.drop (2 ^ 13 * calls)).take (2 ^ 13)
  if chunk = [] then ⟨none, none⟩ else ⟨some chunk, none⟩

/-- The body is read without its chunks, so they are not announced any more. -/
def unchunked (isChunked : Bool) (headers : Lines) : Lines :=
  if isChunked then headers.set "Transfer-Encoding" none else headers

/-- The body is read into memory or into a file first. -/
def bufferedBody (environment : Environment) (isChunked : Bool) : Attempt (Body × Lines) :=
  match environment.bodyData, environment.bodyFile with
  | some data, _ => .proceeds (.text data, unchunked isChunked environment.readBody)
  | none, none => .proceeds (.none, unchunked isChunked environment.readBody)
  | none, some tempFilePath =>
      match environment.openFile tempFilePath with
      | .error _ => .exit 500
      | .ok content =>
          let headers :=
            if isChunked then
              environment.readBody.set "Content-Length" (some (Number.tostring content.length))
            else environment.readBody
          .proceeds (.reader (fileReader content), unchunked isChunked headers)

/-- The body is only taken from the socket if it was not read for the mapping rules before. -/
def fromSocket (environment : Environment) (requestUnbuffered isUrlencoded : Bool) : Bool :=
  requestUnbuffered && environment.httpVersion = 11 && !isUrlencoded

def forwardedBody (environment : Environment) (requestUnbuffered isChunked isUrlencoded : Bool) :
    Except String (Attempt (Body × Lines)) :=
  if environment.method ∈ httpMethodsWithBody then
    if fromSocket environment requestUnbuffered isUrlencoded then socketBody environment isChunked
    else .ok (bufferedBody environment isChunked)
  else .ok (.proceeds (.none, environment.headers))

/-- The gateway's own headers. -/
def Environment.own (environment : Environment) : List (String × Option String) :=
  [("X-Real-IP", some environment.remoteAddr), ("X-3scale-debug", none),
    ("X-3scale-proxy-secret-token", environment.secretToken)]

def ownHeaders (environment : Environment) (headers : RawHeaders) : RawHeaders :=
  environment.own.foldl (fun headers own => headers.assign own.1 own.2) headers

def parameters (environment : Environment) (body : Body) (headers : Lines) : Parameters where
  method := environment.method
  headers := ownHeaders environment headers.raw
  path := environment.uri.getD "" ++ environment.isArgs.getD "" ++ environment.queryString.getD ""
  body := body

/-- `forward_https_request`, up to the connection to the proxy. -/
def forwardHttpsRequest (environment : Environment) (requestUnbuffered : Bool) :
    Except String (Attempt Parameters) :=
  match lowerEquals (environment.headers.named "Transfer-Encoding") "chunked",
    lowerEquals (environment.headers.named "Content-Type") "application/x-www-form-urlencoded" with
  | .error raised, _ => .error raised
  | .ok _, .error raised => .error raised
  | .ok isChunked, .ok isUrlencoded =>
      (forwardedBody environment requestUnbuffered isChunked isUrlencoded).map fun attempt =>
        match attempt with
        | .exit status => .exit status
        | .proceeds (body, headers) => .proceeds (parameters environment body headers)

section OwnHeaders

variable {environment : Environment} {headers : Lines} {name : String}

theorem forall_mem_own {holds : String → Prop}
    (each : ∀ own ∈ ["X-Real-IP", "X-3scale-debug", "X-3scale-proxy-secret-token"], holds own) :
    ∀ own ∈ environment.own, holds own.1 := by
  intro own member
  refine each own.1 ?_
  have named : environment.own.map Prod.fst =
      ["X-Real-IP", "X-3scale-debug", "X-3scale-proxy-secret-token"] := rfl
  rw [← named]
  exact List.mem_map_of_mem member

/-- The table is the one of the client outside of the own names. -/
theorem mem_ownHeaders {header : String × HeaderValue} :
    header ∈ ownHeaders environment headers.raw ↔
      header ∈ headers.raw ∧ (∀ own ∈ environment.own, header.1 ≠ own.1) ∨
        ∃ own ∈ environment.own, ∃ text, own.2 = some text ∧ header = (own.1, .text text) := by
  unfold ownHeaders Environment.own
  simp only [List.foldl_cons, List.foldl_nil, mem_assign, List.forall_mem_cons,
    List.exists_mem_cons_iff]
  constructor
  · rintro (⟨⟨⟨member, first⟩ | text, second⟩ | ⟨_, no, _⟩, third⟩ | token)
    · exact .inl ⟨member, first, second, third, fun _ member => by cases member⟩
    · exact .inr (.inl text)
    · cases no
    · exact .inr (.inr (.inr (.inl token)))
  · rintro (⟨member, first, second, third, -⟩ | text | ⟨_, no, _⟩ | token | ⟨_, no, _⟩)
    · exact .inl ⟨.inl ⟨.inl ⟨member, first⟩, second⟩, third⟩
    · have named : header.1 = "X-Real-IP" := by
        obtain ⟨_, -, rfl⟩ := text
        rfl
      exact .inl ⟨.inl ⟨.inr text, by simp [named]⟩, by simp [named]⟩
    · cases no
    · exact .inr token
    · cases no

end OwnHeaders

/-! ### What arrives -/

/-- What headers say of the body behind them. -/
inductive Framing
  | chunked
  | length (length : Nat)
  | absent
  | unreadable

/-- The transfer encoding goes before the length. -/
def framing (transferEncoding contentLength : Option HeaderValue) : Framing :=
  match transferEncoding, contentLength with
  | some (.text encoding), _ => if lower encoding = "chunked" then .chunked else .unreadable
  | some (.table _), _ => .unreadable
  | none, none => .absent
  | none, some (.text length) => (Number.tonumber length).elim .unreadable .length
  | none, some (.table _) => .unreadable

/-- What is sent of a body. -/
def Body.Sends : Body → Bytes → Prop
  | .none, bytes => bytes = []
  | .text data, bytes => bytes = data
  | .reader source, bytes => ∃ strings, Yields source strings .endOfBody ∧ strings.flatten = bytes

/-- What is sent is what the headers say. Without a length the HTTP client adds the one of a text,
and it refuses a reader. -/
def Body.Fits (body : Body) (payload : Bytes) : Framing → Prop
  | .chunked => ∃ bytes, body.Sends bytes ∧ ChunkedBody bytes payload
  | .length length => body.Sends payload ∧ payload.length = length
  | .absent => body.Sends payload ∧ ∀ reader, body ≠ .reader reader
  | .unreadable => False

/-- The upstream receives a body, in whatever order the HTTP client is handed the headers. -/
def Parameters.Carries (parameters : Parameters) (payload : Bytes) : Prop :=
  ∀ traversal : RawHeaders, traversal.Perm parameters.headers →
    parameters.body.Fits payload
      (framing (traversal.sent "Transfer-Encoding") (traversal.sent "Content-Length"))

/-- How a client announces a body, by the values of both headers. It does so at most once, since
nginx refuses other requests. -/
inductive Announces (payload : Bytes) : List String → List String → Prop
  | chunked {encoding : String} : lower encoding = "chunked" → Announces payload [encoding] []
  | length {length : String} : Number.tonumber length = some payload.length →
      Announces payload [] [length]
  | nothing : Announces payload [] []

namespace Environment

variable (environment : Environment)

def isChunked : Bool := !(environment.headers.values "Transfer-Encoding").isEmpty

def Unannounced : Prop :=
  environment.headers.values "Transfer-Encoding" = [] ∧
    environment.headers.values "Content-Length" = []

/-- What nginx makes of a request with a body. Without a length a body is announced by nothing only
in HTTP/2, and there is no reader for it. -/
structure Receives (payload : Bytes) : Prop where
  announced : Announces payload (environment.headers.values "Transfer-Encoding")
    (environment.headers.values "Content-Length")
  read : environment.readBody = environment.headers ∨
    environment.bodyData ≠ none ∧
      environment.readBody =
        environment.headers.set "Content-Length" (some (Nat.repr payload.length))
  buffered : environment.bodyData = some payload ∨
    environment.bodyData = none ∧
      (environment.bodyFile = none ∧ payload = [] ∨
        ∃ path, environment.bodyFile = some path ∧ environment.openFile path = .ok payload)
  expects : (environment.headers.values "Expect").length ≤ 1
  sends : ∀ text, environment.send text = none
  unannounced : environment.Unannounced → ∀ raw reader, environment.socket raw = .ok reader →
    payload = [] ∧ reader defaultChunksize = none
  streams : ¬environment.Unannounced → ∀ raw reader, environment.socket raw = .ok reader →
    ∃ source buffers, reader defaultChunksize = some source ∧
      Yields source buffers .endOfBody ∧ (∀ buffer ∈ buffers, buffer ≠ []) ∧
      buffers.flatten = payload

/-- The content type is exactly the one of a form. -/
def isUrlencoded : Bool :=
  match environment.headers.named "Content-Type" with
  | some (.text text) => lower text = "application/x-www-form-urlencoded"
  | _ => false

end Environment

section Arrival

variable {environment : Environment} {payload : Bytes}

end Arrival

/-! ### Readers -/

section Readers

variable {reader : BodyReader} {buffer : Bytes} {buffers : List Bytes}

end Readers

section Delivery

variable {environment : Environment} {requestUnbuffered : Bool} {payload : Bytes}

namespace Announces

variable {encodings lengths : List String}

end Announces

theorem testExpect_ok (receives : environment.Receives payload)
    (reader : Nat → Option BodyReader) :
    testExpect ⟨reader, environment.headers.named "Expect", environment.send⟩ =
      .ok (some (), none) := by
  have single := receives.expects
  unfold testExpect Lines.named
  match environment.headers.values "Expect", single with
  | [], _ => rfl
  | [text], _ => simp [getHeader, receives.sends]
  | _ :: _ :: _, single => simp at single

/-- The reader of the client's body is the one of the socket, encoded again when the body came in
chunks. -/
theorem getClientBodyReader_eq (receives : environment.Receives payload)
    (reader : Nat → Option BodyReader) (isChunked : Bool) :
    getClientBodyReader environment reader isChunked =
      .ok ((reader defaultChunksize).map (if isChunked then chunked else id), none) := by
  cases isChunked with
  | false => simp [getClientBodyReader]
  | true =>
      have tested := testExpect_ok receives reader
      cases opened : reader defaultChunksize <;>
        simp [getClientBodyReader, chunkedReader, opened, tested, Except.map]

/-- What the length header says of a body. -/
inductive LengthFits (payload : Bytes) : List String → Prop
  | nothing : LengthFits payload []
  | length {length : String} : Number.tonumber length = some payload.length →
      LengthFits payload [length]

theorem LengthFits.single {lengths : List String} (fits : LengthFits payload lengths) :
    lengths.length ≤ 1 := by
  cases fits <;> simp

theorem LengthFits.fits {lengths : List String} (fits : LengthFits payload lengths) {body : Body}
    (sends : body.Sends payload) (known : ∀ reader, body ≠ .reader reader) :
    body.Fits payload (framing none (getHeader lengths)) := by
  cases fits with
  | nothing => exact ⟨sends, known⟩
  | length announced =>
      simp only [getHeader, framing, announced]
      exact ⟨sends, rfl⟩

/-- A request without a form, whose chunked body was put into a file. -/
def spilledRequest (method : String) : Environment where
  method := method
  httpVersion := 11
  headers := [("Transfer-Encoding", "Chunked"), ("x-real-ip", "6.6.6.6")]
  socket _ := .error "request body already exists"
  send _ := none
  readBody := [("Transfer-Encoding", "Chunked"), ("x-real-ip", "6.6.6.6")]
  bodyData := none
  bodyFile := some "/tmp/client_body"
  openFile _ := .ok [104, 105]
  remoteAddr := "10.0.0.1"
  secretToken := none
  uri := some "/upload"
  isArgs := none
  queryString := none

theorem receives_spilledRequest (method : String) :
    (spilledRequest method).Receives [104, 105] where
  announced := @Announces.chunked _ "Chunked" (by decide)
  read := .inl rfl
  buffered := .inr ⟨rfl, .inr ⟨_, rfl, rfl⟩⟩
  expects := Nat.zero_le 1
  sends _ := rfl
  unannounced silent _ _ _ := by cases silent.1
  streams _ _ _ opened := by cases opened

end Delivery

end ForwardedRequest

end Apicast
