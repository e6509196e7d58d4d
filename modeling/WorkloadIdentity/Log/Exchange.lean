import WorkloadIdentity.Value

/-! Data of an entry that are a request of a client. Nothing but the request is recorded then, by
what identifies it; where it came from is told by its description, if there is one, or
else by its socket. -/

namespace WorkloadIdentity.Log.Exchange

def orElse (v w : Value) : Value := if v.isBlank then w else v

def isRequest (data : Value) : Bool :=
  !(data.member "method").isBlank && !(data.member "headers").isBlank
    && !(data.member "socket").isBlank

/-- The address as it was first asked for, a path, or what stands as the address. -/
def target (data : Value) : Value :=
  let url := data.member "url"
  orElse (data.member "originalUrl") (match data.member "path" with
    | .text path => .text path
    | _ => if url.isBlank then .absent else orElse (url.member "path") url)

def optional (key : String) (data : Value) : Table Value :=
  if (data.member key).isBlank then [] else [(key, data.member key)]

def request (data : Value) : Table Value :=
  let info := data.member "info"
  let connection := orElse info (data.member "socket")
  [("id", orElse (data.member "id") (info.member "id")), ("method", data.member "method"),
    ("url", target data)]
    ++ optional "query" data ++ optional "params" data
    ++ [("headers", data.member "headers"), ("remoteAddress", connection.member "remoteAddress"),
      ("remotePort", connection.member "remotePort")]

def recorded (data : Table Value) : Table Value :=
  if isRequest (.record data) then [("req", .record (request (.record data)))] else data

end WorkloadIdentity.Log.Exchange
