import WorkloadIdentity.Spiffe.Id

/-! X.509 SVIDs: a certificate chain and a private key for one SPIFFE ID.
Certificates and key are opaque bytes. A chain has a leaf, so it is never empty; an
SVID can only be made with a key that is not empty either. -/

namespace WorkloadIdentity.Spiffe

abbrev Der := List UInt8

structure Svid where
  id : Id
  leaf : Der
  intermediates : List Der
  privateKey : Der
  hint : Option String
  deriving DecidableEq

inductive SvidDefect where
  | emptyChain
  | emptyKey
  deriving DecidableEq, Repr

def SvidDefect.message : SvidDefect → String
  | .emptyChain => "certificate chain is empty"
  | .emptyKey => "private key is empty"

def svidFault (now : Int) (message : String) (id : Id) : Fault :=
  .application { kind := "X509SvidError", message := message }
    { code := "invalid_svid", raisedAt := now } [("spiffeId", .text id.text)] .absent

namespace Svid

def certificates (s : Svid) : List Der := s.leaf :: s.intermediates

def make (id : Id) (chain : List Der) (key : Der) (hint : Option String) :
    Except SvidDefect Svid :=
  match chain with
  | [] => .error .emptyChain
  | leaf :: intermediates =>
    if key = [] then .error .emptyKey
    else .ok ⟨id, leaf, intermediates, key, hint⟩

end Svid

end WorkloadIdentity.Spiffe
