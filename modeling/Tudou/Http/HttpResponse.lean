import Tudou.Http.HttpContext
import Tudou.Tcp.TcpConnection

/-!
# `HttpResponse` and its way onto a connection

Model of `src/tudou/http/HttpResponse.{h,cpp}` and of `send_http_response` and
`send_plain_response` in `src/tudou/http/HttpServer.cpp`.

* `HttpResponse` — the members; a file body is a `shared_ptr`, a size and an offset.
* `packageToString` — the status line, the headers, and an in-memory body.
* `serialised` — what a client is to receive: a file body contributes its segment.
* `payload_sendPlainResponse` — **the plain path passes exactly that to the connection**.
-/

namespace Tudou

/-- `HttpResponse::FileBody`. -/
structure FileBody where
  file : Option ScopedFd := none
  size : Nat := 0
  offset : Nat := 0
  deriving DecidableEq, Repr

def kHttpVersion : Bytes := .ofLiteral "HTTP/1.1"
def kContentLengthHeader : Bytes := .ofLiteral "Content-Length"
def kContentTypeHeader : Bytes := .ofLiteral "Content-Type"
def kPlainTextContentType : Bytes := .ofLiteral "text/plain"
def kConnectionHeader : Bytes := .ofLiteral "Connection"
def kCloseConnectionValue : Bytes := .ofLiteral "close"
def kBadRequestMessage : Bytes := .ofLiteral "Bad Request"
def crlf : Bytes := [13, 10]

/-- `HttpResponse`; `headers` is listed in the order of insertion, where the `unordered_map` has an order of its
own. -/
structure HttpResponse where
  httpVersion : Bytes := kHttpVersion
  statusCode : Int := 200
  statusMessage : Bytes := .ofLiteral "OK"
  headers : List (Bytes × Bytes) := []
  body : Bytes := []
  fileBody : FileBody := {}
  hasFileBody : Bool := false
  closeConnection : Bool := false
  deriving DecidableEq, Repr

namespace HttpResponse

def setHeader (field value : Bytes) (r : HttpResponse) : HttpResponse :=
  { r with headers := Tudou.setHeader field value r.headers }

def hasHeader (field : Bytes) (r : HttpResponse) : Bool := r.headers.any fun kv => kv.1 == field

def setBody (body : Bytes) (r : HttpResponse) : HttpResponse :=
  { r with body := body, hasFileBody := false, fileBody := {} }

def setFileBody (file : Option ScopedFd) (size offset : Nat) (r : HttpResponse) : HttpResponse :=
  { r with body := [], fileBody := ⟨file, size, offset⟩, hasFileBody := true }

/-- The file behind `has_file_body()`: marked as the body, not null and valid. -/
def validFile (r : HttpResponse) : Option ScopedFd :=
  if r.hasFileBody then r.fileBody.file.filter (·.valid) else none

def getFileSize (r : HttpResponse) : Nat := if r.hasFileBody then r.fileBody.size else 0

/-- `plain_text(statusCode, statusMessage, body)`. -/
def plainText (statusCode : Int) (statusMessage body : Bytes) : HttpResponse :=
  { setHeader kContentLengthHeader (.ofNat body.length)
      (setHeader kContentTypeHeader kPlainTextContentType
        (setBody body
          { httpVersion := kHttpVersion, statusCode := statusCode, statusMessage := statusMessage })) with
    closeConnection := true }

def statusLine (r : HttpResponse) : Bytes :=
  r.httpVersion ++ [32] ++ .ofLiteral (toString r.statusCode) ++ [32] ++ r.statusMessage ++ crlf

def headerLines (r : HttpResponse) : Bytes :=
  (r.headers.map fun kv => kv.1 ++ .ofLiteral ": " ++ kv.2 ++ crlf).flatten ++
    if r.closeConnection && !r.hasHeader kConnectionHeader then
      kConnectionHeader ++ .ofLiteral ": " ++ kCloseConnectionValue ++ crlf
    else []

/-- `package_to_string()`. -/
def packageToString (r : HttpResponse) : Bytes :=
  r.statusLine ++ r.headerLines ++ crlf ++ if r.validFile.isSome then [] else r.body

/-- The first step of `send_http_response`: complete the `Content-Length`. -/
def withContentLength (r : HttpResponse) : HttpResponse :=
  if r.hasHeader kContentLengthHeader then r
  else
    r.setHeader kContentLengthHeader
      (.ofNat (if r.validFile.isSome then r.getFileSize else r.body.length))

/-- The message head and an in-memory body, `responseHead` in the code. -/
def responseHead (r : HttpResponse) : Bytes := r.withContentLength.packageToString

/-- The bytes of a file body. -/
def fileSegment (r : HttpResponse) : Bytes :=
  match r.validFile with
  | none => []
  | some file => file.segment r.fileBody.size r.fileBody.offset

/-- What the client is to receive: the head and the body, from memory or from the file. -/
def serialised (r : HttpResponse) : Bytes := r.responseHead ++ r.fileSegment

/-- `send_plain_response(conn, resp, responseHead)`. -/
def sendPlainResponse (responseHead : Bytes) (r : HttpResponse) : Request :=
  match r.validFile with
  | none => .send responseHead
  | some file => .sendFileWithHeader responseHead file r.fileBody.size r.fileBody.offset

/-- `send_http_response` on a connection without TLS. -/
def sendHttpResponse (r : HttpResponse) : List Request :=
  let resp := r.withContentLength
  resp.sendPlainResponse resp.packageToString :: if resp.closeConnection then [.forceClose] else []

@[simp] theorem withContentLength_validFile (r : HttpResponse) :
    r.withContentLength.validFile = r.validFile := by
  unfold withContentLength
  split <;> rfl

@[simp] theorem withContentLength_fileBody (r : HttpResponse) :
    r.withContentLength.fileBody = r.fileBody := by
  unfold withContentLength
  split <;> rfl

@[simp] theorem withContentLength_closeConnection (r : HttpResponse) :
    r.withContentLength.closeConnection = r.closeConnection := by
  unfold withContentLength
  split <;> rfl

theorem responseHead_ne_nil (r : HttpResponse) : r.responseHead ≠ [] := by
  simp [responseHead, packageToString, crlf]

/-- **The plain path passes the serialised response to the connection.** -/
theorem payload_sendPlainResponse (r : HttpResponse) :
    (r.withContentLength.sendPlainResponse r.responseHead).payload = r.serialised := by
  unfold sendPlainResponse serialised fileSegment
  rw [withContentLength_validFile, withContentLength_fileBody]
  cases r.validFile with
  | none => exact (List.append_nil _).symm
  | some file => rfl

end HttpResponse

end Tudou
