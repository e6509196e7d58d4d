import Mathlib.Data.List.Nodup
import WorkloadIdentity.Proofs.Settings.Startup

/-! An address that the environment holds, but empty. It counts as none only after the merge, so it
stands in front of the address of the file: what is loaded is what would be loaded without
it, less the address. The two runs agree exactly where the file has no address to hide. -/

namespace WorkloadIdentity.Settings

open Watch Endpoint

namespace Source

def Textual (s : Source) : Prop :=
  ∀ values, s.loaded = .ok values →
    s.Regular ∧ ∀ k v, s.gives? k = some v → ∃ text, v = .text text

/-- The variables of a file: each has one text, and none is under the name of the parent. -/
structure NamesOnce (parse : String → Table String) : Prop where
  once : ∀ content, (Table.keys (parse content)).Nodup
  orphan : ∀ content, Innate.parent.name ∉ Table.keys (parse content)

theorem namesOnce_parseFile : NamesOnce parseFile where
  once content := (List.filter_sublist.map Prod.fst).nodup (Table.ordered_ofList _).nodup_keys
  orphan content := by simp [parseFile, withoutParent, Table.erase, Table.keys]

theorem keys_texts (t : Table String) : Table.keys (texts t) = Table.keys t := by
  simp [texts, Table.keys]

theorem text_of_get?_texts {t : Table String} {k : String} {v : Value}
    (found : Table.get? k (texts t) = some v) : ∃ text, v = .text text := by
  induction t with
  | nil => cases found
  | cons e rest ih =>
    simp only [texts, List.map_cons, Table.get?] at found ih
    split at found
    · cases found
      exact ⟨e.2, rfl⟩
    · exact ih found

theorem textual_envFileWith {parse : String → Table String} (named : NamesOnce parse)
    (tree : FileTree) (directory : Path) (file : String) :
    (envFileWith parse tree directory file false).Textual := by
  intro values loaded
  have texts : ∃ t : Table String, (Table.keys t).Nodup ∧ Innate.parent.name ∉ Table.keys t ∧
      values = texts t := by
    simp only [envFileWith] at loaded
    split at loaded
    · cases loaded
      exact ⟨_, named.once _, named.orphan _, rfl⟩
    · split at loaded <;> cases loaded
      exact ⟨[], by simp [Table.keys], by simp [Table.keys], rfl⟩
  obtain ⟨t, once, orphan, rfl⟩ := texts
  rw [← keys_texts] at once orphan
  refine ⟨⟨_, loaded, once, orphan⟩, fun k v gives => ?_⟩
  simp only [gives?, loaded, offer, Option.filter_eq_some_iff] at gives
  exact text_of_get?_texts gives.1

end Source

theorem loaded_of_addAll {m m' : Merged} {sources : List Source}
    (merged : m.addAll sources = .ok m') : ∀ s ∈ sources, ∃ values, s.loaded = .ok values := by
  induction sources generalizing m with
  | nil => simp
  | cons s rest ih =>
    simp only [Merged.addAll] at merged
    split at merged
    · cases merged
    · rename_i values loaded
      exact List.forall_mem_cons.mpr ⟨⟨values, loaded⟩, ih merged⟩

section
variable {tree : FileTree} {directory : Path} {environment : Table Value} {front : List Source}
  {key : String}

theorem winner?_append (front back : List Source) :
    winner? key (front ++ back) = (winner? key back).or (winner? key front) := by
  induction front with
  | nil => simp [winner?]
  | cons s rest ih => simp only [List.cons_append, winner?, ih, Option.or_assoc]

theorem text_of_winner? (textual : ∀ s ∈ front, s.Textual) {before : Merged}
    (read : ({} : Merged).addAll front = .ok before) :
    ∀ v ∈ (winner? key front).map Prod.snd, ∃ text, v = .text text := by
  intro v won
  obtain ⟨⟨name, v⟩, found, rfl⟩ := Option.map_eq_some_iff.mp won
  obtain ⟨file, -, early, late, whole, gives, -⟩ := winner?_eq_some_iff.mp found
  have member : file ∈ front := by simp [whole]
  obtain ⟨_, loaded⟩ := loaded_of_addAll read file member
  exact (textual file member _ loaded).2 _ _ gives

theorem Loader.exists_sources {loader : Loader} (named : Source.NamesOnce loader.parse)
    (tree : FileTree) (directory : Path) (environment : Table Value) :
    ∃ front : List Source, (∀ s ∈ front, s.Textual) ∧
      loader.sources tree directory environment = front ++ [Source.environment environment ""] ∧
      loader.sources tree directory (Table.erase socketVariable environment) =
        front ++ [Source.environment (Table.erase socketVariable environment) ""] := by
  have stage : Table.get? stageVariable (Table.erase socketVariable environment) =
      Table.get? stageVariable environment := Table.get?_erase_of_ne (by decide) environment
  refine ⟨_, ?_, rfl, by simp only [sources, stage]⟩
  split
  · split
    · simp
    · simpa using Source.textual_envFileWith named tree directory _
  · simp

theorem get?_of_merged (textual : ∀ s ∈ front, s.Textual) (once : (Table.keys environment).Nodup)
    {before : Merged} (read : ({} : Merged).addAll front = .ok before) :
    ∃ m, ({} : Merged).addAll (front ++ [Source.environment environment ""]) = .ok m ∧
      m.inherited = [] ∧ ∀ k, k ≠ Innate.parent.name →
        Table.get? k m.values = (offer environment k).or ((winner? k front).map Prod.snd) := by
  have regular : ∀ s ∈ front ++ [Source.environment environment ""], s.Regular := by
    intro s member
    rcases List.mem_append.mp member with early | last
    · obtain ⟨values, loaded⟩ := loaded_of_addAll read s early
      exact (textual s early values loaded).1
    · rw [List.mem_singleton.mp last]
      exact Source.regular_environment environment
  obtain ⟨m, merged, becomes⟩ := Merged.addAll_becomes {} regular
  refine ⟨m, merged, by rw [Merged.inherited, becomes.parent]; rfl, fun k other => ?_⟩
  rw [becomes.values, winner?_append]
  simp only [winner?, Source.gives?_environment once other, Table.get?, Option.or_none,
    Option.none_or, Option.map_or, Option.map_map]
  cases offer environment k <;> rfl

end

namespace Workload

def withoutEndpoint (w : Workload) : Workload := { w with endpoint := none }

theorem ofTable_of_same {t u : Table Value}
    (same : ∀ f ∈ workloadFields, f.name ≠ socketVariable →
      Table.get? f.name t = Table.get? f.name u) :
    ofTable t = { ofTable u with endpoint := (Table.get? socketVariable t).bind text? } := by
  simp only [workloadFields, List.forall_mem_cons] at same
  obtain ⟨-, timeout, policy, level, pretty, -⟩ := same
  simp only [ofTable, timeout (by decide), policy (by decide), level (by decide),
    pretty (by decide)]

end Workload

def socketField : Field := ⟨socketVariable, .textTo unlessEmpty, .optional⟩

theorem orphan_workloadFields : ∀ f ∈ workloadFields, f.name ≠ Innate.parent.name := by decide

namespace Loader

section
variable {loader : Loader} {rule : Rule} {tree : FileTree} {directory : Path}
  {environment : Table Value}

theorem load_of_merged {sources : List Source} {m : Merged}
    (sourced : loader.sources tree directory environment = sources)
    (merged : ({} : Merged).addAll sources = .ok m) :
    (∀ told, loader.check workloadFields m.values m.inherited = .error told →
      loader.load tree directory environment = .error (.invalid told (sources.map Source.name))) ∧
    ∀ data, loader.check workloadFields m.values m.inherited = .ok data →
      loader.load tree directory environment = .ok (Workload.ofTable data) := by
  obtain ⟨refuses, loads⟩ := loadWith_of_merged (loader.check workloadFields) merged
  rw [load, sourced]
  refine ⟨fun told refused => ?_, fun data accepted => ?_⟩
  · rw [refuses told refused]
    rfl
  · rw [loads data accepted]
    rfl

/-- Of two tables that differ in the address, which is empty in the one: they are refused alike, or
what is accepted of them differs in the address. -/
theorem check_of_emptied (lawful : rule.Lawful) (governs : rule.Governs loader.check)
    {given unset : Table Value} (empty : Table.get? socketVariable given = some (.text ""))
    (textual : ∀ v ∈ Table.get? socketVariable unset, ∃ text, v = .text text)
    (same : ∀ f ∈ workloadFields, f.name ≠ socketVariable →
      Table.get? f.name given = Table.get? f.name unset) :
    (∃ told, loader.check workloadFields given [] = .error told ∧
        loader.check workloadFields unset [] = .error told) ∨
      ∃ data dataUnset, loader.check workloadFields given [] = .ok data ∧
        loader.check workloadFields unset [] = .ok dataUnset ∧
        Workload.ofTable data = (Workload.ofTable dataUnset).withoutEndpoint ∧
        (Workload.ofTable dataUnset).endpoint =
          ((Table.get? socketVariable unset).bind Workload.text?).filter (· ≠ "") := by
  obtain ⟨_, accepted, -⟩ := lawful.text socketField "" rfl
  obtain ⟨_, acceptedUnset⟩ := lawful.accepts_text textual
  have silent : ∀ f ∈ workloadFields, f.name = socketVariable →
      rule.told given f = [] ∧ rule.told unset f = [] := by
    intro f member own
    obtain rfl : f = socketField :=
      List.inj_on_of_nodup_map nodup_workloadFields member List.mem_cons_self own
    exact ⟨Rule.told_of_ok (empty ▸ accepted), Rule.told_of_ok acceptedUnset⟩
  rcases governs.check_congr nodup_workloadFields given unset []
      (by simpa only [List.append_nil] using same) (by simpa only [List.append_nil] using silent)
    with refused | ⟨data, dataUnset, accepted, acceptedUnset, alike⟩
  · exact .inl refused
  · have lost := lawful.text_of_accepted
      (governs.accepted nodup_workloadFields accepted socketField List.mem_cons_self)
    have found := lawful.text_of_accepted
      (governs.accepted nodup_workloadFields acceptedUnset socketField List.mem_cons_self)
    simp only [List.append_nil, socketField, empty] at lost found
    refine .inr ⟨data, dataUnset, accepted, acceptedUnset, ?_, found⟩
    rw [Workload.ofTable_of_same alike, lost]
    rfl

theorem load_of_empty (lawful : rule.Lawful) (governs : rule.Governs loader.check)
    (named : Source.NamesOnce loader.parse) (once : (Table.keys environment).Nodup)
    (empty : Table.get? socketVariable environment = some (.text "")) :
    let unset := Table.erase socketVariable environment
    loader.load tree directory environment =
        (loader.load tree directory unset).map Workload.withoutEndpoint ∧
      ∀ w, loader.load tree directory unset = .ok w → w.endpoint =
        (((winner? socketVariable (loader.sources tree directory unset)).map Prod.snd).bind
          Workload.text?).filter (· ≠ "") := by
  intro unset
  have onceUnset : (Table.keys unset).Nodup := (List.filter_sublist.map Prod.fst).nodup once
  have silent : offer unset socketVariable = none := by
    simp [offer, unset, Table.get?_erase_self]
  have emptied : offer environment socketVariable = some (.text "") := by
    rw [offer, empty]
    rfl
  have apart (k : String) (other : k ≠ socketVariable) : offer unset k = offer environment k := by
    simp only [offer, unset, Table.get?_erase_of_ne other]
  obtain ⟨front, textual, given, givenUnset⟩ := exists_sources named tree directory environment
  have hidden : winner? socketVariable (loader.sources tree directory unset) =
      winner? socketVariable front := by
    have lacks : (Source.environment unset "").gives? socketVariable = none :=
      (Source.gives?_environment onceUnset (by decide)).trans silent
    rw [givenUnset, winner?_append, winner?, lacks]
    rfl
  cases read : ({} : Merged).addAll front with
  | error r =>
    have lost (e : Table Value)
        (sourced : loader.sources tree directory e = front ++ [Source.environment e ""]) :
        loader.load tree directory e = .error r := by
      simp only [load, loadWith, sourced, Merged.addAll_append, read]
      rfl
    rw [lost environment given, lost unset givenUnset]
    exact ⟨rfl, by rintro _ ⟨⟩⟩
  | ok before =>
    obtain ⟨m, merged, orphan, values⟩ := get?_of_merged textual once read
    obtain ⟨n, mergedUnset, orphanUnset, valuesUnset⟩ :=
      get?_of_merged textual onceUnset read
    have socket := values socketVariable (by decide)
    have socketUnset := valuesUnset socketVariable (by decide)
    rw [emptied, Option.some_or] at socket
    rw [silent, Option.none_or] at socketUnset
    have same : ∀ f ∈ workloadFields, f.name ≠ socketVariable →
        Table.get? f.name m.values = Table.get? f.name n.values := by
      intro f member other
      have orphaned : f.name ≠ Innate.parent.name := orphan_workloadFields f member
      rw [values _ orphaned, valuesUnset _ orphaned, apart _ other]
    obtain ⟨refuses, loads⟩ := load_of_merged given merged
    obtain ⟨refusesUnset, loadsUnset⟩ := load_of_merged givenUnset mergedUnset
    rw [orphan] at refuses loads
    rw [orphanUnset] at refusesUnset loadsUnset
    have text : ∀ v ∈ Table.get? socketVariable n.values, ∃ text, v = .text text :=
      socketUnset ▸ text_of_winner? textual read
    rcases check_of_emptied lawful governs socket text same with
      ⟨told, refused, refusedUnset⟩ | ⟨data, dataUnset, accepted, acceptedUnset, lost, found⟩
    · have names : (front ++ [Source.environment environment ""]).map Source.name =
          (front ++ [Source.environment unset ""]).map Source.name := by
        simp only [List.map_append]
        rfl
      rw [refuses told refused, refusesUnset told refusedUnset, names]
      exact ⟨rfl, by rintro _ ⟨⟩⟩
    · rw [loads data accepted, loadsUnset dataUnset acceptedUnset, lost, hidden, ← socketUnset]
      refine ⟨rfl, ?_⟩
      rintro _ ⟨⟩
      exact found

end

end Loader

section
variable {loader : Loader} {w : Workload}
  {deps other : Deps} {options others : Options}

theorem create_congr (same : Plan.make deps options = Plan.make other others) (s : Session) :
    s.create deps options = s.create other others := by
  simp only [Session.create, same]

theorem make_handed_empty (options : Options) :
    Plan.make (loader.handed deps w (some "")) options =
      Plan.make (loader.handed deps w none) options := by
  have vacant : Address.find options.endpoint (some "") = Address.find options.endpoint none := by
    cases options.endpoint <;> rfl
  simp only [Plan.make, Plan.chooseClient, Loader.handed, vacant]
  rfl

theorem make_handed_of_hasClient (ready : deps.hasClient = true) (address : Option String) :
    Plan.make (loader.handed deps w.withoutEndpoint address) w.withoutEndpoint.options =
      Plan.make (loader.handed deps w none) w.options :=
  Plan.make_of_hasClient (loader.handed deps w none) w.options ready none address deps.factory

end

/-- An empty address is as good as none exactly where nothing else has one that counts. Where the
file has one, it is hidden: all else is loaded as it would be, and a source that is to have a
client built for it is refused for want of an address. -/
theorem empty_address_hides_file (loader : Loader) (rule : Rule) (lawful : rule.Lawful)
    (governs : rule.Governs loader.check) (named : Source.NamesOnce loader.parse) (tree : FileTree)
    (directory : Path) (environment : Table Value) (once : (Table.keys environment).Nodup)
    (empty : Table.get? socketVariable environment = some (.text "")) :
    let unset := Table.erase socketVariable environment
    let given := loader.load tree directory environment
    let without := loader.load tree directory unset
    given = without.map Workload.withoutEndpoint ∧
    (∀ w, without = .ok w → ∀ text, w.endpoint = some text ↔ text ≠ "" ∧
      ∃ file, LastGives (loader.sources tree directory unset) socketVariable file
        (.text text)) ∧
    (given = without ↔ ∀ w, without = .ok w → w.endpoint = none) ∧
    ∀ (s : Session) (deps : Deps),
      let started := loader.startSource s deps tree directory environment
      let startedUnset := loader.startSource s deps tree directory unset
      (given = without → started = startedUnset) ∧
      (deps.hasClient = true → started.1 = startedUnset.1) ∧
      ∀ w, without = .ok w → w.endpoint ≠ none → deps.hasClient = false →
        started = (s, .error (.source (.badAddress .unset))) := by
  intro unset given without
  obtain ⟨hides, endpoint⟩ : given = without.map Workload.withoutEndpoint ∧ _ :=
    Loader.load_of_empty lawful governs named once empty
  have held : (Table.get? socketVariable environment).bind Workload.text? = some "" := by
    rw [empty]
    rfl
  have vacant : (Table.get? socketVariable unset).bind Workload.text? = none := by
    rw [Table.get?_erase_self]
    rfl
  have emptied {w : Workload} (loaded : without = .ok w) : given = .ok w.withoutEndpoint := by
    rw [hides, loaded]
    rfl
  refine ⟨hides, ?_, ?_, fun s deps => ?_⟩
  · intro w loaded text
    rw [endpoint w loaded, Option.filter_eq_some_iff, Option.bind_eq_some_iff]
    simp only [Option.map_eq_some_iff, Prod.exists, exists_eq_right, winner?_eq_some_iff,
      decide_eq_true_eq]
    constructor
    · rintro ⟨⟨v, ⟨_, file, -, last⟩, read⟩, filled⟩
      exact ⟨filled, file, Workload.eq_text_of_text? read ▸ last⟩
    · rintro ⟨filled, file, last⟩
      exact ⟨⟨_, ⟨_, file, rfl, last⟩, rfl⟩, filled⟩
  · constructor
    · intro same w loaded
      have both : w.withoutEndpoint = w :=
        Except.ok.inj ((emptied loaded).symm.trans (same.trans loaded))
      exact congrArg Workload.endpoint both.symm
    · intro lacking
      cases loaded : without with
      | error r =>
        rw [hides, loaded]
        rfl
      | ok w =>
        have none : w.withoutEndpoint = w := by rw [Workload.withoutEndpoint, ← lacking w loaded]
        rw [emptied loaded, none]
  · intro started startedUnset
    refine ⟨fun same => ?_, fun ready => ?_, fun w loaded hidden clientless => ?_⟩
    · cases loaded : without with
      | error r =>
        have refused : given = .error r := same.trans loaded
        simp only [started, startedUnset, Loader.startSource,
          show loader.load _ _ _ = _ from loaded, show loader.load _ _ _ = _ from refused]
      | ok w =>
        have found : given = .ok w := same.trans loaded
        simp only [started, startedUnset, Loader.startSource_of_load s deps held found,
          Loader.startSource_of_load s deps vacant loaded, create_congr (make_handed_empty _) s]
    · cases loaded : without with
      | error r =>
        have refused : given = .error r := by
          rw [hides, loaded]
          rfl
        simp only [started, startedUnset, Loader.startSource,
          show loader.load _ _ _ = _ from loaded, show loader.load _ _ _ = _ from refused]
      | ok w =>
        simp only [started, startedUnset, Loader.startSource_of_load s deps held (emptied loaded),
          Loader.startSource_of_load s deps vacant loaded,
          create_congr (make_handed_of_hasClient ready (some "")) s]
    · have found := emptied loaded
      obtain ⟨⟨limit, limited⟩, -, -⟩ := Loader.of_load lawful governs once found
      have clientless : (loader.handed deps w.withoutEndpoint (some "")).hasClient = false :=
        clientless
      have lost := Session.create_of_lost (s := s) clientless limited (p := .unset) rfl
      simp only [started, Loader.startSource_of_load s deps held found, lost]

def stagedTree : FileTree :=
  [([".env.test"],
    .file ("SPIFFE_ENDPOINT_SOCKET=unix:///tmp/agent.sock".toList.map fun c => c.toNat.toUInt8))]

theorem loaded_stagedTree : (Source.envFile stagedTree [] ".env.test" false).loaded =
    .ok [(socketVariable, .text "unix:///tmp/agent.sock")] := by
  let bytes := "SPIFFE_ENDPOINT_SOCKET=unix:///tmp/agent.sock".toList.map fun c => c.toNat.toUInt8
  have path : Path.resolve [] ".env.test" = [".env.test"] := by
    have parts : ".env.test".splitOn "/" = [".env.test"] := by
      simp +decide [String.splitOn, String.splitOnAux]
    have relative : ".env.test".startsWith "/" = false := by decide +kernel
    rw [Path.resolve, parts, relative]
    rfl
  have read : stagedTree.read [".env.test"] = .ok bytes := rfl
  have parsed : EnvFile.parse (Text.Utf8.decode bytes) =
      [(socketVariable, "unix:///tmp/agent.sock")] := by
    decide +kernel
  simp only [Source.envFile, Source.envFileWith, Source.parseFile, path, read, parsed]
  rfl

theorem load_stagedTree : ∃ w,
    Loader.standard.load stagedTree [] [(stageVariable, .text "test")] = .ok w ∧
      w.endpoint = some "unix:///tmp/agent.sock" := by
  have file : Source.envFile stagedTree [] ".env.test" false =
      ⟨"dotenv:.env.test", .ok [(socketVariable, .text "unix:///tmp/agent.sock")]⟩ := by
    rw [← loaded_stagedTree]
    rfl
  have given : Loader.standard.sources stagedTree [] [(stageVariable, .text "test")] =
      [Source.envFile stagedTree [] ".env.test" false,
        Source.environment [(stageVariable, .text "test")] ""] := rfl
  simp only [Loader.load, given, file]
  exact ⟨_, rfl, rfl⟩

theorem empty_address_hides_file_of_stage :
    let loader := Loader.standard
    let s : Session :=
      { wall := 0, handDriven := true, timers := { time := 0 }, transport := .scripted {} }
    let deps : Deps := { factory := some fun _ => .ok () }
    let environment : Table Value := [(socketVariable, .text ""), (stageVariable, .text "test")]
    Field.rule.Lawful ∧ Field.rule.Governs loader.check ∧ Source.NamesOnce loader.parse ∧
      (Table.keys environment).Nodup ∧
      Table.get? socketVariable environment = some (.text "") ∧ deps.hasClient = false ∧
      loader.startSource s deps stagedTree [] environment =
        (s, .error (.source (.badAddress .unset))) := by
  intro loader s deps environment
  have lawful := Field.lawful_rule
  have governs : Field.rule.Governs loader.check := Schema.governs_check
  have named : Source.NamesOnce loader.parse := Source.namesOnce_parseFile
  have once : (Table.keys environment).Nodup := by decide
  obtain ⟨w, loaded, endpoint⟩ := load_stagedTree
  obtain ⟨-, -, -, starts⟩ := empty_address_hides_file loader Field.rule lawful governs named
    stagedTree [] environment once rfl
  obtain ⟨-, -, refuses⟩ := starts s deps
  exact ⟨lawful, governs, named, once, rfl, rfl, refuses w loaded (by simp [endpoint]) rfl⟩

/-- Without the variable the address of the file is loaded; with the variable empty, none is. -/
theorem empty_address_is_not_unset :
    let loader := Loader.standard
    let unset : Table Value := [(stageVariable, .text "test")]
    let environment := Table.put socketVariable (.text "") unset
    ∃ w, loader.load stagedTree [] unset = .ok w ∧
      w.endpoint = some "unix:///tmp/agent.sock" ∧
      loader.load stagedTree [] environment ≠ loader.load stagedTree [] unset := by
  intro loader unset environment
  obtain ⟨w, loaded, endpoint⟩ := load_stagedTree
  have once : (Table.keys environment).Nodup := by decide
  have hides : loader.load stagedTree [] environment =
      (loader.load stagedTree [] unset).map Workload.withoutEndpoint :=
    (Loader.load_of_empty Field.lawful_rule Schema.governs_check Source.namesOnce_parseFile once
      rfl).1
  refine ⟨w, loaded, endpoint, fun same => ?_⟩
  rw [hides, show loader.load stagedTree [] unset = .ok w from loaded] at same
  have lacking : none = w.endpoint := congrArg Workload.endpoint (Except.ok.inj same)
  rw [endpoint] at lacking
  cases lacking

end WorkloadIdentity.Settings
