import WorkloadIdentity.Proofs.Endpoint.RoundTrip
import WorkloadIdentity.Proofs.Session.Refused

/-! The endpoint that is shown of a source. It is the text of the address that the client is built
for, and no two addresses that can be read have the same text: the scheme tells the kind, a path
stands in the text as it is, and the text of an IP address and a port is read back. -/

namespace WorkloadIdentity

open Endpoint

def Fault.context : Fault → Table Value
  | .foreign _ _ => []
  | .application _ _ context _ => context

namespace Endpoint.Address

variable {s t host : String} {path : String} {port : Nat} {a b : Address}

theorem text_unix_injective {other : String} (same : text (.unix path) = text (.unix other)) :
    path = other :=
  String.append_right_inj "unix://" |>.mp same

theorem text_unix_ne_text_tcp : text (.unix path) ≠ text (.tcp host port) := by
  intro same
  have first := congrArg (fun shown => shown.toList.head?) same
  simp [text, String.toList_append] at first

theorem parse_text_of_tcp (accepted : parse s = .ok (.tcp host port)) :
    parse (text (.tcp host port)) = .ok (.tcp host port) := by
  obtain ⟨settled, address, few⟩ := of_parse_tcp accepted
  have back := parse_tcp settled address few
  rwa [String.ofList_toList] at back

theorem text_eq_iff (accepted : parse s = .ok a) (other : parse t = .ok b) :
    a.text = b.text ↔ a = b := by
  refine ⟨fun same => ?_, congrArg text⟩
  cases a with
  | unix path =>
    cases b with
    | unix path' => rw [text_unix_injective same]
    | tcp host port => exact absurd same text_unix_ne_text_tcp
  | tcp host port =>
    cases b with
    | unix path => exact absurd same.symm text_unix_ne_text_tcp
    | tcp host' port' =>
      have first := parse_text_of_tcp accepted
      rw [same, parse_text_of_tcp other] at first
      exact (Except.ok.inj first).symm

end Endpoint.Address

namespace Watch

/-- An endpoint is shown: with every entry that the source logs, with a fault of its watch, or with
the fault for which there is no source. -/
inductive Plan.Shows (plan : Plan) (endpoint : String) : Prop where
  | entry {setup : Setup} {built : Option Address} (started : plan = .start setup built)
      (shown : Table.get? "endpoint" setup.logContext = some (.text endpoint))
  | startFault {setup : Setup} {built : Option Address} {now : Int} {v : Value}
      (started : plan = .start setup built)
      (shown : Table.get? "endpoint" (setup.startFault now v).context = some (.text endpoint))
  | watchFault {setup : Setup} {built : Option Address} {now : Int} {v : Value}
      (started : plan = .start setup built)
      (shown : Table.get? "endpoint" (setup.watchFault now v).context = some (.text endpoint))
  | obstacle {o : Obstacle} {now : Int} (refused : plan = .refuse o)
      (shown : Table.get? "endpoint" (o.fault now).context = some (.text endpoint))

namespace Plan

variable {deps : Deps} {options : Options} {setup : Setup} {built : Option Address} {o : Obstacle}
  {a : Address} {endpoint : String}

theorem get?_endpointContext (setup : Setup) :
    Table.get? "endpoint" setup.endpointContext = setup.endpoint.map .text := by
  unfold Setup.endpointContext
  cases setup.endpoint <;> rfl

theorem shows_start : (start setup built).Shows endpoint ↔ setup.endpoint = some endpoint := by
  have same : Table.get? "endpoint" setup.endpointContext = some (.text endpoint) ↔
      setup.endpoint = some endpoint := by
    rw [get?_endpointContext]
    cases setup.endpoint <;> simp
  constructor
  · rintro (⟨⟨⟩, shown⟩ | ⟨⟨⟩, shown⟩ | ⟨⟨⟩, shown⟩ | ⟨⟨⟩, -⟩) <;> exact same.mp shown
  · exact fun held => .entry rfl (same.mpr held)

theorem shows_refuse : (refuse o).Shows endpoint ↔
    ∃ now, Table.get? "endpoint" (o.fault now).context = some (.text endpoint) := by
  constructor
  · rintro (⟨⟨⟩, -⟩ | ⟨⟨⟩, -⟩ | ⟨⟨⟩, -⟩ | @⟨_, now, ⟨⟩, shown⟩)
    exact ⟨now, shown⟩
  · rintro ⟨now, shown⟩
    exact .obstacle rfl shown

theorem not_shows_badTimeout (v : Value) : ¬(refuse (.badTimeout v)).Shows endpoint := by
  rw [shows_refuse]
  rintro ⟨now, ⟨⟩⟩

theorem not_shows_badAddress (p : AddressProblem) : ¬(refuse (.badAddress p)).Shows endpoint := by
  rw [shows_refuse]
  rintro ⟨now, shown⟩
  cases p <;> cases shown

theorem shows_noClient : (refuse (.noClient a.text)).Shows endpoint ↔ endpoint = a.text := by
  simp [shows_refuse, Obstacle.fault, Fault.configuration, Fault.context, Table.get?, eq_comm]

theorem shows_factoryThrew (v : Value) :
    (refuse (.factoryThrew a v)).Shows endpoint ↔ endpoint = a.text := by
  simp [shows_refuse, Obstacle.fault, Fault.connection, Fault.context, Table.get?, eq_comm]

/-- What is shown is the text of the address that a client is to be built for, and it is shown
whatever comes of that. -/
theorem shows_make_iff : (make deps options).Shows endpoint ↔
    ¬InvalidLimit options.initTimeout ∧ deps.hasClient = false ∧
      ∃ a, Address.find options.endpoint deps.environment = .ok a ∧ endpoint = a.text := by
  cases limited : initTimeout? options.initTimeout with
  | error o =>
    obtain ⟨invalid, rfl⟩ := initTimeout?_eq_error_iff.mp limited
    simp [make, limited, not_shows_badTimeout, invalid]
  | ok limit =>
    have valid := not_invalidLimit limited
    cases ready : deps.hasClient with
    | true => simp [make, limited, chooseClient, ready, shows_start]
    | false =>
      cases found : Address.find options.endpoint deps.environment with
      | error p => simp [make, limited, chooseClient, ready, found, not_shows_badAddress]
      | ok a =>
        have shown : (make deps options).Shows endpoint ↔ endpoint = a.text := by
          cases given : deps.factory with
          | none => simp [make, limited, chooseClient, ready, found, given, shows_noClient]
          | some build =>
            cases made : build a with
            | error v =>
              simp [make, limited, chooseClient, ready, found, given, made, shows_factoryThrew]
            | ok _ =>
              simp [make, limited, chooseClient, ready, found, given, made, shows_start, eq_comm]
        simp [shown, valid]

end Plan

/-- Two texts that are read as addresses and whose addresses are written alike are read as the same
address. So where calls that make sources show the same endpoint, it is the same socket. -/
theorem shown_endpoint_identifies_address {s t : String} {a b : Address}
    (accepted : Address.parse s = .ok a) (other : Address.parse t = .ok b) :
    (a.text = b.text ↔ a = b) ∧
      ∀ deps deps' options options' endpoint,
        (Plan.make deps options).Shows endpoint → (Plan.make deps' options').Shows endpoint →
        ∃ c, Address.find options.endpoint deps.environment = .ok c ∧
          Address.find options'.endpoint deps'.environment = .ok c ∧ endpoint = c.text := by
  refine ⟨Address.text_eq_iff accepted other, ?_⟩
  intro deps deps' options options' endpoint shows shows'
  obtain ⟨-, -, c, found, rfl⟩ := Plan.shows_make_iff.mp shows
  obtain ⟨-, -, d, found', same⟩ := Plan.shows_make_iff.mp shows'
  obtain ⟨_, parsed, -⟩ := of_find found
  obtain ⟨_, parsed', -⟩ := of_find found'
  obtain rfl := (Address.text_eq_iff parsed parsed').mp same
  exact ⟨c, found, found', rfl⟩

theorem shown_endpoint_identifies_address_of_colons :
    Address.parse "tcp://[0::1:80]:0443" = .ok (.tcp "::1:80" 443) ∧
      Address.parse "tcp://[::1]:80" = .ok (.tcp "::1" 80) ∧
      ((Address.tcp "::1:80" 443).text = (Address.tcp "::1" 80).text ↔
        Address.tcp "::1:80" 443 = .tcp "::1" 80) :=
  have accepted : Address.parse "tcp://[0::1:80]:0443" = .ok (.tcp "::1:80" 443) := by
    decide +kernel
  have other : Address.parse "tcp://[::1]:80" = .ok (.tcp "::1" 80) := by decide +kernel
  ⟨accepted, other, (shown_endpoint_identifies_address accepted other).1⟩

end Watch

end WorkloadIdentity
