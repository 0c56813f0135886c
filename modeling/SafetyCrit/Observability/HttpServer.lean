import SafetyCrit.Library.Decimal
import SafetyCrit.Library.Search

/-!
Owns the model of `http_server.cpp` for one connection: what the server makes of
a complete request head, when it asks for more bytes, and the receive loop.

Bytes are characters. The handlers are fixed, timeouts do not fire and sends
succeed; a response whose header does not fit its buffer is not sent, as in the
source.
-/

namespace SafetyCrit.Observability.Http

open SafetyCrit.Library.Decimal
open SafetyCrit.Library.Search

/-- `kMaxRequestLineBytes`. -/
def kMaxRequestLineBytes : Nat := 512

/-- `kMaxHeaderBytes`. -/
def kMaxHeaderBytes : Nat := 8192

/-- `kMaxHeaderLines`. -/
def kMaxHeaderLines : Nat := 32

/-- `kMaxResponseBodyBytes`. -/
def kMaxResponseBodyBytes : Nat := 65536

/-- `kHeadCapacity`, the size of a connection's buffer. -/
def kHeadCapacity : Nat := kMaxRequestLineBytes + kMaxHeaderBytes + 4

def crlf : List Char := ['\r', '\n']

/-- The end of a request head. -/
def headMark : List Char := ['\r', '\n', '\r', '\n']

/-! ### Responses -/

/-- `HttpResponse`. -/
structure HttpResponse where
  status : Int
  contentType : List Char
  body : List Char
deriving DecidableEq, Repr

/-- A response as `HttpResponse{}` with a status and a body. -/
def HttpResponse.plain (status : Int) (body : List Char) : HttpResponse :=
  ⟨status, "text/plain; charset=utf-8".toList, body⟩

/-- `reason_phrase`. -/
def reasonPhrase (status : Int) : List Char :=
  if status = 200 then "OK".toList
  else if status = 400 then "Bad Request".toList
  else if status = 404 then "Not Found".toList
  else if status = 405 then "Method Not Allowed".toList
  else if status = 408 then "Request Timeout".toList
  else if status = 431 then "Request Header Fields Too Large".toList
  else "Internal Server Error".toList

/-- The header block of a response. -/
def headerText (response : HttpResponse) (keepAlive : Bool) : List Char :=
  "HTTP/1.1 ".toList ++ printInt response.status ++ " ".toList ++
    reasonPhrase response.status ++ "\r\nServer: safety-critical-ha\r\nContent-Type: ".toList ++
    response.contentType.takeWhile (· ≠ '\x00') ++ "\r\nContent-Length: ".toList ++
    printNat response.body.length ++ "\r\nConnection: ".toList ++
    (if keepAlive then "keep-alive".toList else "close".toList) ++ "\r\n\r\n".toList

/-- `send_response`: the bytes sent, or nothing where the header overflows its
buffer. -/
def sendResponse (response : HttpResponse) (head keepAlive : Bool) : Option (List Char) :=
  let response :=
    if response.body.length > kMaxResponseBodyBytes then
      HttpResponse.plain 500 "response too large\n".toList
    else response
  let header := headerText response keepAlive
  if header.length ≥ 512 then none
  else some (header ++ if head then [] else response.body)

/-- `send_simple`. -/
def sendSimple (status : Int) : Option (List Char) :=
  let body :=
    if status = 400 then "bad request\n".toList
    else if status = 404 then "not found\n".toList
    else if status = 405 then "method not allowed\n".toList
    else if status = 408 then "request timeout\n".toList
    else if status = 431 then "request header fields too large\n".toList
    else "internal server error\n".toList
  sendResponse (HttpResponse.plain status body) false false

/-! ### A complete request head -/

/-- A registered route; the handler's answer is `none` where it returns false. -/
structure Route where
  path : List Char
  handler : Option HttpResponse

/-- `token_chars`. `strchr` also finds the NUL that ends its string. -/
def tokenChars (text : List Char) : Bool :=
  !text.isEmpty && text.all fun symbol =>
    symbol.isAlphanum || symbol ∈ "!#$%&'*+-.^_`|~".toList || symbol = '\x00'

/-- `iscntrl`. -/
def isControl (symbol : Char) : Bool := decide (symbol.toNat < 32) || symbol.toNat == 127

/-- The check of the request target. -/
def targetValid (target : List Char) : Bool :=
  !target.isEmpty && target.all fun symbol =>
    !(isControl symbol || symbol = ' ' || symbol = '\t')

/-- `lower_ascii`. -/
def lowerAscii (text : List Char) (cap : Nat) : List Char :=
  if text.length ≥ cap then [] else text.map Char.toLower

/-- `rfind` of one character. -/
def findLast (symbol : Char) (text : List Char) : Option Nat :=
  (find [symbol] text.reverse).map fun back => text.length - 1 - back

/-- What one header line does. -/
inductive HeaderLine where
  | malformed
  | body
  | other (close : Bool)
deriving DecidableEq, Repr

/-- One pass of the header loop over its line. -/
def headerLine (line : List Char) : HeaderLine :=
  if line = [] then .malformed
  else match find [':'] line with
    | none => .malformed
    | some 0 => .malformed
    | some colon =>
        let lowered := lowerAscii (line.take colon) 64
        let value := (line.drop (colon + 1)).dropWhile (· = ' ')
        if lowered = "content-length".toList then .body
        else .other (decide (lowered = "connection".toList) &&
          decide (lowerAscii value 32 = "close".toList))

/-- The header loop over the text between the request line and the end of the
head; `none` is a rejection with 400. -/
def headerLoop (region : List Char) (keepAlive : Bool) : Option Bool :=
  if region = [] then some keepAlive
  else
    let stop := find crlf region
    let line := match stop with
      | none => region
      | some position => region.take position
    let rest := match stop with
      | none => []
      | some position => region.drop (position + 2)
    match headerLine line with
    | .malformed => none
    | .body => none
    | .other close => headerLoop rest (keepAlive && !close)
termination_by region.length
decreasing_by
  have positive := List.length_pos_of_ne_nil (by assumption)
  split
  · exact positive
  · rw [List.length_drop]
    omega

/-- The route's answer to a path. -/
def routeAnswer (routes : List Route) (method path : List Char) : HttpResponse :=
  if method ≠ "GET".toList ∧ method ≠ "HEAD".toList then
    HttpResponse.plain 405 "method not allowed\n".toList
  else match routes.find? (fun route => route.path = path) with
    | none => HttpResponse.plain 404 "not found\n".toList
    | some route => route.handler.getD (HttpResponse.plain 500 "internal server error\n".toList)

/-- What the server sends for a complete head, and whether the connection then
stays open. -/
def answer (routes : List Route) (head : List Char) : Option (List Char) × Bool :=
  let headEnd := head.length - 4
  let firstCrlf := (find crlf head).getD 0
  let region := (head.take headEnd).drop (firstCrlf + 2)
  if region.length > kMaxHeaderBytes then (sendSimple 431, false)
  else if region.countP (· = '\n') + 1 > kMaxHeaderLines then (sendSimple 431, false)
  else
    let requestLine := head.take firstCrlf
    match find [' '] requestLine, findLast ' ' requestLine with
    | some first, some last =>
        if last = first then (sendSimple 400, false)
        else
          let method := requestLine.take first
          let target := (requestLine.drop (first + 1)).take (last - first - 1)
          let version := requestLine.drop (last + 1)
          if ¬ tokenChars method ∨ ¬ targetValid target ∨
              (version ≠ "HTTP/1.0".toList ∧ version ≠ "HTTP/1.1".toList) then
            (sendSimple 400, false)
          else match headerLoop region (version = "HTTP/1.1".toList) with
            | none => (sendSimple 400, false)
            | some keepAlive =>
                let path := (find ['?'] target).elim target target.take
                let sent := sendResponse (routeAnswer routes method path)
                  (method = "HEAD".toList) keepAlive
                (sent, keepAlive && sent.isSome)
    | _, _ => (sendSimple 400, false)

/-! ### The connection -/

/-- What a buffer calls for. -/
inductive Verdict where
  | wait
  | refuse
  | serve (head : List Char)
deriving DecidableEq, Repr

/-- The checks of `service_connection` up to a complete head. -/
def judge (buf : List Char) : Verdict :=
  match find crlf buf with
  | none => if buf.length > kMaxRequestLineBytes then .refuse else .wait
  | some firstCrlf =>
      if firstCrlf > kMaxRequestLineBytes then .refuse
      else match find headMark buf with
        | none => if buf.length ≥ kHeadCapacity then .refuse else .wait
        | some headEnd => .serve (buf.take (headEnd + 4))

/-- A connection: its buffer, how many bytes of the stream belong to requests
already answered, and the responses sent. -/
structure Connection where
  buf : List Char
  consumed : Nat
  sent : List (List Char)
  isOpen : Bool
deriving DecidableEq, Repr

/-- A connection just accepted. -/
def Connection.fresh : Connection := ⟨[], 0, [], true⟩

theorem length_head_pos {buf head : List Char} (served : judge buf = .serve head) :
    0 < head.length ∧ head <+: buf := by
  unfold judge at served
  split at served
  · split at served <;> cases served
  · split at served
    · cases served
    · split at served
      · split at served <;> cases served
      · next headEnd found =>
        cases served
        have fits := end_le_of_find found
        have size : headMark.length = 4 := rfl
        refine ⟨?_, List.take_prefix _ _⟩
        rw [List.length_take]
        omega

/-- `service_connection`. -/
def serviceConnection (routes : List Route) (conn : Connection) : Connection :=
  match _judged : judge conn.buf with
  | .wait => conn
  | .refuse =>
      { conn with sent := conn.sent ++ (sendSimple 431).toList, isOpen := false }
  | .serve head =>
      match answer routes head with
      | (none, _) => { conn with isOpen := false }
      | (some bytes, keepAlive) =>
          let next : Connection := { conn with
            buf := conn.buf.drop head.length
            consumed := conn.consumed + head.length
            sent := conn.sent ++ [bytes] }
          if ¬ keepAlive then { next with isOpen := false }
          else if next.buf = [] then next
          else serviceConnection routes next
termination_by conn.buf.length
decreasing_by
  obtain ⟨positive, starts⟩ := length_head_pos _judged
  have fits := starts.length_le
  simp only [List.length_drop]
  omega

/-- One `recv` of the run loop. -/
def receive (routes : List Route) (conn : Connection) (chunk : List Char) : Connection :=
  serviceConnection routes { conn with buf := conn.buf ++ chunk }

end SafetyCrit.Observability.Http
