import WorkloadIdentity.Proofs.Session.Steady

/-! The client that is built for a source. The factory is called for an address only when a source
is made, and after that the addresses stay as they are, whatever the source and the client do. A
source without a ready client is refused, or has the one that was built for its address. -/

namespace WorkloadIdentity.Watch

theorem Plan.make_of_hasClient (deps : Deps) (options : Options) (ready : deps.hasClient = true)
    (endpoint environment : Option String) (factory : Option Factory) :
    make { deps with environment := environment, factory := factory }
      { options with endpoint := endpoint } = make deps options := by
  simp only [make, chooseClient, ready, if_true]

namespace Session

section
variable {s : Session} {i : Nat}

theorem steady_addresses (a : List Endpoint.Address) : Steady fun s => s.addresses = a where
  react {s} i e kept := by
    unfold react
    split
    · exact kept
    · exact (executeAll_keeps i _ _).2.trans kept
  transport _ kept := kept

@[simp] theorem addresses_subscribe (s : Session) (i : Nat) :
    (s.subscribe i).addresses = s.addresses :=
  (steady_addresses s.addresses).subscribe i rfl

variable {deps : Deps} {options : Options} {limit : Option Float} {a : Endpoint.Address}

theorem create_of_refused {o : Obstacle} (refused : Plan.make deps options = .refuse o) :
    s.create deps options =
      ({ s with addresses := s.addresses ++ (Plan.refuse o).addresses }, .error o) := by
  simp only [create, refused]

theorem create_of_start {setup : Setup} {built : Option Endpoint.Address}
    (started : Plan.make deps options = .start setup built) :
    (s.create deps options).1.addresses = s.addresses ++ built.toList ∧
      (s.create deps options).2 = .ok s.sources.length := by
  simp only [create, started, addresses_subscribe, Plan.addresses, and_self]

theorem chooseClient_ne_badTimeout (v : Value) :
    Plan.chooseClient deps options ≠ .error (.badTimeout v) := by
  unfold Plan.chooseClient
  split
  · nofun
  · split
    · nofun
    · split
      · nofun
      · split <;> nofun

theorem create_ne_badTimeout (s : Session) (deps : Deps)
    (limited : initTimeout? options.initTimeout = .ok limit) (v : Value) :
    (s.create deps options).2 ≠ .error (.badTimeout v) := by
  cases chosen : Plan.chooseClient deps options with
  | error o =>
    have refused : Plan.make deps options = .refuse o := by simp [Plan.make, limited, chosen]
    rw [create_of_refused refused]
    rintro ⟨⟩
    exact chooseClient_ne_badTimeout v chosen
  | ok built =>
    obtain ⟨setup, started⟩ : ∃ setup, Plan.make deps options = .start setup built := by
      simp [Plan.make, limited, chosen]
    rw [(create_of_start started).2]
    nofun

theorem create_of_lost {p : Endpoint.AddressProblem} (clientless : deps.hasClient = false)
    (limited : initTimeout? options.initTimeout = .ok limit)
    (lost : Endpoint.Address.find options.endpoint deps.environment = .error p) :
    s.create deps options = (s, .error (.badAddress p)) := by
  have refused : Plan.make deps options = .refuse (.badAddress p) := by
    simp [Plan.make, limited, Plan.chooseClient, clientless, lost]
  simpa [Plan.addresses] using create_of_refused (s := s) refused

theorem create_of_found (clientless : deps.hasClient = false)
    (limited : initTimeout? options.initTimeout = .ok limit)
    (found : Endpoint.Address.find options.endpoint deps.environment = .ok a) :
    (deps.factory = none → s.create deps options = (s, .error (.noClient a.text))) ∧
      ∀ build, deps.factory = some build →
        (s.create deps options).1.addresses = s.addresses ++ [a] ∧
        (∀ v, build a = .error v → (s.create deps options).2 = .error (.factoryThrew a v)) ∧
        (build a = .ok () → (s.create deps options).2 = .ok s.sources.length) := by
  constructor
  · intro missing
    have refused : Plan.make deps options = .refuse (.noClient a.text) := by
      simp [Plan.make, limited, Plan.chooseClient, clientless, found, missing]
    simpa [Plan.addresses] using create_of_refused (s := s) refused
  · intro build given
    cases made : build a with
    | error v =>
      have refused : Plan.make deps options = .refuse (.factoryThrew a v) := by
        simp [Plan.make, limited, Plan.chooseClient, clientless, found, given, made]
      simp [create_of_refused refused, Plan.addresses]
    | ok _ =>
      have started : ∃ setup, Plan.make deps options = .start setup (some a) := by
        simp [Plan.make, limited, Plan.chooseClient, clientless, found, given, made]
      obtain ⟨setup, started⟩ := started
      simpa using create_of_start (s := s) started

end

end Session

end WorkloadIdentity.Watch
