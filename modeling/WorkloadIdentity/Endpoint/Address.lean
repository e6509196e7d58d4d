import WorkloadIdentity.Endpoint.Uri
import WorkloadIdentity.Endpoint.Percent
import WorkloadIdentity.Fault.Standard

/-! Addresses of the Workload API: the path of a Unix socket, or an IP address and a
port. An address is written as a URI with the scheme `unix` or `tcp`. -/

namespace WorkloadIdentity.Endpoint

inductive Address where
  | unix (path : String)
  | tcp (host : String) (port : Nat)
  deriving DecidableEq

inductive Refusal where
  | notUri
  | userInfo
  | queryOrFragment
  | unixAuthority
  | relativePath
  | emptyPath
  | malformedPath
  | notIp
  | noPort
  | tcpPath
  | scheme
  deriving DecidableEq, Repr

def Refusal.message : Refusal → String
  | .notUri => "not a valid URI"
  | .userInfo => "must not include user info"
  | .queryOrFragment => "must not include a query or fragment"
  | .unixAuthority => "unix socket URI must not include an authority"
  | .relativePath => "unix socket URI must include an absolute path"
  | .emptyPath => "unix socket URI must include a path"
  | .malformedPath => "malformed percent-encoding in path"
  | .notIp => "tcp URI host must be an IP address"
  | .noPort => "tcp URI must include a port"
  | .tcpPath => "tcp URI must not include a path"
  | .scheme => "scheme must be \"unix\" or \"tcp\""

def socketVariable : String := "SPIFFE_ENDPOINT_SOCKET"

inductive AddressProblem where
  | unset
  | refused (address : String) (refusal : Refusal)
  deriving DecidableEq

def AddressProblem.fault (now : Int) : AddressProblem → Fault
  | .unset => .configuration now
      ("Workload API address is not configured; set " ++ socketVariable
        ++ " or pass endpointAddress")
  | .refused address refusal => .configuration now
      ("Invalid Workload API address \"" ++ address ++ "\": " ++ refusal.message)
      [("address", .text address), ("reason", .text refusal.message)]

namespace Address

def unix? (u : Uri) : Except Refusal Address :=
  if u.host ≠ [] then .error .unixAuthority
  else if u.path.head? ≠ some '/' then .error .relativePath
  else if u.path = ['/'] then .error .emptyPath
  else match Percent.decode? u.path with
    | none => .error .malformedPath
    | some path => .ok (.unix (String.ofList path))

def bareHost : List Char → List Char
  | '[' :: rest => if rest.getLast? = some ']' then rest.dropLast else '[' :: rest
  | s => s

def tcp? (u : Uri) : Except Refusal Address :=
  let host := bareHost u.host
  if ipVersion? host = none then .error .notIp
  else match u.port with
    | none => .error .noPort
    | some port =>
      if u.path ≠ [] then .error .tcpPath else .ok (.tcp (String.ofList host) port)

def ofUri? (u : Uri) : Except Refusal Address :=
  if u.user ≠ [] ∨ u.password ≠ [] then .error .userInfo
  else if u.query ≠ [] ∨ u.fragment ≠ [] then .error .queryOrFragment
  else if u.scheme = "unix" then unix? u
  else if u.scheme = "tcp" then tcp? u
  else .error .scheme

def parse (text : String) : Except Refusal Address :=
  match Uri.parse? text with
  | none => .error .notUri
  | some u => ofUri? u

def text : Address → String
  | .unix path => "unix://" ++ path
  | .tcp host port =>
    let host := if isIpv6 host.toList then "[" ++ host ++ "]" else host
    "tcp://" ++ host ++ ":" ++ Number.naturalText port

def read (text : String) : Except AddressProblem Address :=
  (parse text).mapError (.refused text)

/-- The address given, or else the one the environment holds; an empty one counts as none. -/
def find (given : Option String) (environment : Option String) : Except AddressProblem Address :=
  match given <|> environment with
  | none => .error .unset
  | some text => if text = "" then .error .unset else read text

end Address

end WorkloadIdentity.Endpoint
