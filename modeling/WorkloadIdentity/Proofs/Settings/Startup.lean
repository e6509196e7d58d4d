import WorkloadIdentity.Proofs.Session.Opening
import WorkloadIdentity.Proofs.Settings.Accepted
import WorkloadIdentity.Proofs.Settings.Provenance

/-! Sources that are started from the environment, whatever reads the files, takes the entries and
checks the settings by lawful rules. The settings and the source each look at the limit on the
wait and at the address, and they agree: a limit that the schema accepts is accepted again, and
where the settings have no address the environment has none either. -/

namespace WorkloadIdentity.Settings

open Watch Endpoint

section
variable {environment values : Table Value} {front : List Source} {m : Merged} {key : String}
  {v : Value}

theorem Source.loaded_environment (values : Table Value) :
    (Source.environment values "").loaded = .ok (Table.ofList (Source.withoutParent values)) := by
  have whole (name : String) : Source.afterStem "" name = some name := by
    simpa using Source.afterStem_append "" name
  simp [Source.environment, whole]

theorem Source.nodup_withoutParent (once : (Table.keys values).Nodup) :
    (Table.keys (Source.withoutParent values)).Nodup :=
  (List.filter_sublist.map Prod.fst).nodup once

theorem Source.regular_environment (values : Table Value) :
    (Source.environment values "").Regular := by
  refine ⟨_, Source.loaded_environment values, (Table.ordered_ofList _).nodup_keys, ?_⟩
  rw [Table.ofList, Table.mem_keys_merge]
  simp [Table.keys, Source.withoutParent, Table.erase]

theorem Source.gives?_environment (once : (Table.keys environment).Nodup)
    (other : key ≠ Innate.parent.name) :
    (Source.environment environment "").gives? key = offer environment key := by
  simp only [Source.gives?, Source.loaded_environment, offer]
  rw [Table.get?_ofList (Source.nodup_withoutParent once), Source.withoutParent,
    Table.get?_erase_of_ne other]

theorem Merged.addAll_append (m : Merged) (front back : List Source) :
    m.addAll (front ++ back) =
      match m.addAll front with
      | .error r => .error r
      | .ok m => m.addAll back := by
  induction front generalizing m with
  | nil => rfl
  | cons s rest ih =>
    simp only [List.cons_append, addAll]
    split
    · rfl
    · exact ih _

theorem get?_of_addAll_environment (once : (Table.keys environment).Nodup)
    (merged : ({} : Merged).addAll (front ++ [Source.environment environment ""]) = .ok m)
    (other : key ≠ Innate.parent.name) (present : v.isAbsent = false)
    (given : Table.get? key environment = some v) : m.values.get? key = some v := by
  rw [Merged.addAll_append] at merged
  split at merged
  · cases merged
  · rename_i before _
    have regular : ∀ s ∈ [Source.environment environment ""], s.Regular := by
      simpa using Source.regular_environment environment
    obtain ⟨after, added, becomes⟩ := Merged.addAll_becomes before regular
    rw [merged] at added
    cases added
    have gives : (Source.environment environment "").gives? key = some v := by
      simp [Source.gives?_environment once other, offer, given, present]
    simp [becomes.values, winner?, gives]

end

section
variable {loader : Loader} {rule : Rule} {tree : FileTree} {directory : Path}
  {environment : Table Value} {w : Workload} {sources : List Source}

theorem merged_of_loadWith {check : Check} {l : Loaded}
    (loaded : loadWith check sources = .ok l) :
    ∃ m, ({} : Merged).addAll sources = .ok m ∧ check m.values m.inherited = .ok l.data := by
  unfold loadWith at loaded
  split at loaded
  · cases loaded
  · rename_i m merged
    split at loaded
    · cases loaded
    · rename_i data accepted
      cases loaded
      exact ⟨m, merged, accepted⟩

theorem nodup_workloadFields : (workloadFields.map Field.name).Nodup := by decide

/-- The settings that are loaded: a source takes their limit, their address is not empty, and an
address of the environment is theirs. -/
theorem Loader.of_load (lawful : rule.Lawful) (governs : rule.Governs loader.check)
    (once : (Table.keys environment).Nodup)
    (loaded : loader.load tree directory environment = .ok w) :
    (∃ limit, initTimeout? w.options.initTimeout = .ok limit) ∧ w.endpoint ≠ some "" ∧
      ∀ text, Table.get? socketVariable environment = some (.text text) → text ≠ "" →
        w.endpoint = some text := by
  unfold load at loaded
  cases settled : loadWith (loader.check workloadFields)
      (loader.sources tree directory environment) with
  | error r =>
    rw [settled] at loaded
    cases loaded
  | ok l =>
    rw [settled] at loaded
    cases loaded
    obtain ⟨m, merged, accepted⟩ := merged_of_loadWith settled
    have kept := governs.accepted nodup_workloadFields accepted
    have endpoint := lawful.text_of_accepted (kept _ List.mem_cons_self)
    have timeout := kept _ (List.mem_cons_of_mem _ List.mem_cons_self)
    refine ⟨lawful.limit_of_accepted timeout, ?_, ?_⟩
    · intro empty
      have endpoint := endpoint.symm.trans empty
      simp [Option.filter_eq_some_iff] at endpoint
    · intro text given filled
      have kept : Table.get? socketVariable (m.values ++ m.inherited) = some (.text text) := by
        rw [Table.get?_append, get?_of_addAll_environment once merged (by decide) rfl given,
          Option.some_or]
      rw [kept] at endpoint
      exact endpoint.trans (by simp [Workload.text?, Option.filter, filled])

def Loader.handed (loader : Loader) (deps : Deps) (w : Workload) (address : Option String) : Deps :=
  { deps with
    environment := address, sink := some (deps.sink.getD (loader.sink w.threshold w.pretty)) }

theorem Loader.startSource_of_load (s : Session) (deps : Deps) {address : Option String}
    (held : (Table.get? socketVariable environment).bind Workload.text? = address)
    (loaded : loader.load tree directory environment = .ok w) :
    loader.startSource s deps tree directory environment =
      ((s.create (loader.handed deps w address) w.options).1,
        match (s.create (loader.handed deps w address) w.options).2 with
        | .error o => .error (.source o)
        | .ok i => .ok (i, w)) := by
  subst held
  simp only [startSource, loaded]
  rfl

theorem Workload.eq_text_of_text? {v : Value} {text : String} (named : text? v = some text) :
    v = .text text := by
  cases v <;> cases named
  rfl

theorem find_of_unset {environment : Option String}
    (vacant : ∀ text, environment = some text → text = "") :
    Address.find none environment = .error .unset := by
  cases environment with
  | none => rfl
  | some text => simp [Address.find, vacant text rfl]

theorem find_of_given {text : String} (filled : text ≠ "") (environment : Option String) :
    Address.find (some text) environment = (Address.parse text).mapError (.refused text) := by
  simp [Address.find, Address.read, filled]

end

/-- The settings decide. When they are refused, nothing else happens; when they are loaded, the
limit on the wait is never refused, the factory is handed the address of the settings, and
where they have none the source is refused for want of one. -/
theorem startSource_follows_settings (loader : Loader) (rule : Rule) (lawful : rule.Lawful)
    (governs : rule.Governs loader.check) (s : Session) (deps : Deps) (tree : FileTree)
    (directory : Path) (environment : Table Value) (once : (Table.keys environment).Nodup)
    (clientless : deps.hasClient = false) :
    let started := loader.startSource s deps tree directory environment
    (∀ r, loader.load tree directory environment = .error r →
      started = (s, .error (.settings r))) ∧
    ∀ w, loader.load tree directory environment = .ok w →
      (∀ v, started.2 ≠ .error (.source (.badTimeout v))) ∧
      (w.endpoint = none → started = (s, .error (.source (.badAddress .unset)))) ∧
      ∀ text, w.endpoint = some text →
        (∀ r, Address.parse text = .error r →
          started = (s, .error (.source (.badAddress (.refused text r))))) ∧
        ∀ a, Address.parse text = .ok a →
          (deps.factory = none → started = (s, .error (.source (.noClient a.text)))) ∧
          ∀ build, deps.factory = some build →
            started.1.addresses = s.addresses ++ [a] ∧
            (∀ v, build a = .error v → started.2 = .error (.source (.factoryThrew a v))) ∧
            (build a = .ok () → ∃ i, started.2 = .ok (i, w)) := by
  intro started
  constructor
  · intro r refused
    simp only [started, Loader.startSource, refused]
  · intro w loaded
    obtain ⟨⟨limit, limited⟩, filled, inherits⟩ := Loader.of_load lawful governs once loaded
    have made : started = _ := Loader.startSource_of_load s deps rfl loaded
    let handed := loader.handed deps w ((Table.get? socketVariable environment).bind Workload.text?)
    have clientless : handed.hasClient = false := clientless
    refine ⟨fun v => ?_, fun addressless => ?_, fun text given => ⟨fun r refused => ?_, ?_⟩⟩
    · have other := Session.create_ne_badTimeout s handed limited v
      rw [made]
      cases created : (s.create handed w.options).2 with
      | error o =>
        simp only
        rintro ⟨⟩
        exact other created
      | ok i => nofun
    · have vacant : ∀ text, handed.environment = some text → text = "" := by
        intro text held
        refine Classical.byContradiction fun filled => ?_
        obtain ⟨v, found, named⟩ := Option.bind_eq_some_iff.mp held
        have same := inherits text (Workload.eq_text_of_text? named ▸ found) filled
        rw [addressless] at same
        cases same
      have lost : Address.find w.options.endpoint handed.environment = .error .unset := by
        rw [Workload.options, addressless]
        exact find_of_unset vacant
      rw [made, Session.create_of_lost clientless limited lost]
    · have lost : Address.find w.options.endpoint handed.environment =
          .error (.refused text r) := by
        rw [Workload.options, given, find_of_given (fun empty => filled (empty ▸ given)), refused]
        rfl
      rw [made, Session.create_of_lost clientless limited lost]
    · intro a accepted
      have found : Address.find w.options.endpoint handed.environment = .ok a := by
        rw [Workload.options, given, find_of_given (fun empty => filled (empty ▸ given)), accepted]
        rfl
      obtain ⟨missing, builds⟩ := Session.create_of_found (s := s) clientless limited found
      refine ⟨fun none => by rw [made, missing none], fun build some => ?_⟩
      obtain ⟨addresses, threw, built⟩ := builds build some
      rw [made]
      refine ⟨addresses, fun v thrown => by rw [threw v thrown], fun done => ?_⟩
      exact ⟨_, by rw [built done]⟩

theorem startSource_follows_settings_of_socket :
    let loader := Loader.standard
    let s : Session :=
      { wall := 0, handDriven := true, timers := { time := 0 }, transport := .scripted {} }
    let deps : Deps := { factory := some fun _ => .ok () }
    let environment : Table Value := [(socketVariable, .text "unix:///tmp/agent.sock")]
    let started := loader.startSource s deps [] [] environment
    Field.rule.Lawful ∧ Field.rule.Governs loader.check ∧ (Table.keys environment).Nodup ∧
      deps.hasClient = false ∧ started.1.addresses = [.unix "/tmp/agent.sock"] ∧
      ∃ w, loader.load [] [] environment = .ok w ∧ ∃ i, started.2 = .ok (i, w) := by
  intro loader s deps environment started
  have lawful := Field.lawful_rule
  have governs : Field.rule.Governs loader.check := Schema.governs_check
  have once : (Table.keys environment).Nodup := by decide
  obtain ⟨w, loaded, endpoint⟩ : ∃ w, loader.load [] [] environment = .ok w ∧
      w.endpoint = some "unix:///tmp/agent.sock" := ⟨_, rfl, rfl⟩
  have accepted : Address.parse "unix:///tmp/agent.sock" = .ok (.unix "/tmp/agent.sock") := rfl
  obtain ⟨-, -, follows⟩ := (startSource_follows_settings loader Field.rule lawful governs s deps
    [] [] environment once rfl).2 w loaded
  obtain ⟨addresses, -, done⟩ := ((follows _ endpoint).2 _ accepted).2 _ rfl
  exact ⟨lawful, governs, once, rfl, addresses, w, loaded, done rfl⟩

end WorkloadIdentity.Settings
