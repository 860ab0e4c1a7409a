import VlanTrunking.Proofs.History
import VlanTrunking.Proofs.Repetition

/-! Records as copies. A client takes over what the server of its domain held when it published,
whatever has become of either switch since then, and nothing but a publication touches a record. A
client that is up to date can therefore be made the server of its domain: it publishes what was on
record already. -/
namespace VlanTrunking

/-- Switches under names of their own beside a registry, to be worked on without a service. They may
be in any state. -/
structure Bench where
  devices : String → Device
  registry : Registry

namespace Bench

/-- What is done on a bench. A direct change of a switch may make anything of it. -/
inductive Act where
  | edit (name : String) (change : Device → Device)
  | publish (name : String)
  | pull (name : String)

variable (b : Bench)

def publish (name : String) : Bench × Bool :=
  match b.registry.publish (b.devices name) with
  | some registry => ({ b with registry }, true)
  | none => (b, false)

def pull (name : String) : Bench × Bool :=
  match b.registry.pull (b.devices name) with
  | some d => ({ b with devices := Function.update b.devices name d }, true)
  | none => (b, false)

def act : Act → Bench
  | .edit name change =>
    { b with devices := Function.update b.devices name (change (b.devices name)) }
  | .publish name => (b.publish name).1
  | .pull name => (b.pull name).1

def run (acts : List Act) : Bench := acts.foldl act b

variable {b} {name : String}

theorem publish_some {registry : Registry}
    (written : b.registry.publish (b.devices name) = some registry) :
    b.publish name = ({ b with registry }, true) := by
  rw [publish, written]

theorem publish_none (declined : b.registry.publish (b.devices name) = none) :
    b.publish name = (b, false) := by
  rw [publish, declined]

theorem pull_some {d : Device} (pulled : b.registry.pull (b.devices name) = some d) :
    b.pull name = ({ b with devices := Function.update b.devices name d }, true) := by
  rw [pull, pulled]

theorem pull_none (declined : b.registry.pull (b.devices name) = none) :
    b.pull name = (b, false) := by
  rw [pull, declined]

theorem published_iff : (b.publish name).2 = true ↔ (b.devices name).Advertises := by
  unfold publish Registry.publish
  by_cases advertises : (b.devices name).Advertises <;> simp [advertises]

theorem pulled_iff :
    (b.pull name).2 = true ↔ (b.devices name).mode = .client ∧
      ∃ record, b.registry.lookup (b.devices name).domain = some record := by
  unfold pull Registry.pull
  by_cases client : (b.devices name).mode = .client <;>
    cases b.registry.lookup (b.devices name).domain <;> simp [client]

theorem publish_declined (declined : (b.publish name).2 = false) : (b.publish name).1 = b := by
  cases written : b.registry.publish (b.devices name) with
  | none => rw [publish_none written]
  | some registry =>
    rw [publish_some written] at declined
    cases declined

theorem pull_declined (declined : (b.pull name).2 = false) : (b.pull name).1 = b := by
  cases pulled : b.registry.pull (b.devices name) with
  | none => rw [pull_none pulled]
  | some d =>
    rw [pull_some pulled] at declined
    cases declined

theorem lookup_publish (published : (b.publish name).2 = true) :
    (b.publish name).1.registry.lookup (b.devices name).domain =
      some (b.devices name).record := by
  cases written : b.registry.publish (b.devices name) with
  | none =>
    rw [publish_none written] at published
    cases published
  | some registry =>
    rw [publish_some written]
    exact Registry.knows_of_publish written

theorem pull_pull : (b.pull name).1.pull name = b.pull name := by
  cases pulled : b.registry.pull (b.devices name) with
  | none => rw [pull_none pulled, pull_none pulled]
  | some d =>
    have client : d.mode = .client := by
      obtain ⟨client, record, _, rfl⟩ := Registry.of_pull pulled
      exact client
    have again : b.registry.pull (Function.update b.devices name d name) = some d := by
      rw [Function.update_self]
      exact Registry.pull_of_knows (Registry.knows_of_pull pulled) client
    rw [pull_some pulled, pull_some again, Function.update_idem]

theorem act_registry {a : Act} (quiet : ∀ name, a ≠ .publish name) :
    (b.act a).registry = b.registry := by
  cases a with
  | edit name change => rfl
  | publish name => exact absurd rfl (quiet name)
  | pull name =>
    rw [act, pull]
    split <;> rfl

theorem run_registry {acts : List Act} (quiet : ∀ name, .publish name ∉ acts) :
    (b.run acts).registry = b.registry := by
  induction acts generalizing b with
  | nil => rfl
  | cons a acts ih =>
    have first : ∀ name, a ≠ .publish name := by
      rintro name rfl
      exact quiet name List.mem_cons_self
    have rest : ∀ name, .publish name ∉ acts := fun name h => quiet name (List.mem_cons_of_mem a h)
    exact (ih rest).trans (act_registry first)

end Bench

theorem Registry.synchronize_follower {r : Registry} {d : Device} {record : DomainRecord}
    (client : d.mode = .client) (known : r.lookup d.domain = some record) {t : Trigger}
    (consults : t ≠ .vlanEdited) : r.synchronize d t = (r, d.adopt record) := by
  have silent : ¬d.PublishesOn t := fun speaks => Device.not_client_of_server speaks.1.1 client
  apply Prod.ext
  · rw [synchronize_registry, if_neg silent]
  · rw [synchronize_device, if_pos ⟨client, consults⟩, known]
    rfl

namespace Service

theorem perform_setMode (s : Service) (id : String) (mode : Mode) :
    (s.perform (.config id (.setMode mode))).1 =
      s.store id (s.registry.synchronize ((s.device id).setMode mode) .modeSet) :=
  s.perform_state _

theorem setMode_of_follower {s : Service} {id : String} {record : DomainRecord}
    (known : s.registry.lookup (s.device id).domain = some record) (mode : Mode) :
    let following := (s.perform (.config id (.setMode .client))).1
    (following.perform (.config id (.setMode mode))).1 =
      s.store id (s.registry, ((s.device id).setMode mode).adopt record) := by
  have following : (s.perform (.config id (.setMode .client))).1 =
      s.store id (s.registry, ((s.device id).setMode .client).adopt record) := by
    have client : ((s.device id).setMode .client).mode = .client := rfl
    have consults : Trigger.modeSet ≠ .vlanEdited := by decide
    rw [perform_setMode, Registry.synchronize_follower client known consults]
  have up_to_date :
      s.registry.Knows ((((s.device id).setMode .client).adopt record).setMode mode) := known
  dsimp only
  rw [following, perform_setMode, device_store_self, store_registry,
    Registry.synchronize_of_knows up_to_date, store_store]
  rfl

end Service

/-- What was published stays on record as long as nothing else is published, and a client of the
domain takes over its revision and its VLANs and keeps all else. Pulling twice is pulling once; only
a server with a domain publishes and only a client of a known domain pulls, and nothing comes of it
otherwise. In the service a device that becomes a client of a known domain, and then its server,
leaves the registry as it is and holds the record. -/
theorem publishing_and_pulling_copy (b : Bench) (s : Service) :
    (∀ server client acts, (b.publish server).2 = true → (∀ name, .publish name ∉ acts) →
      let source := b.devices server
      let later := (b.publish server).1.run acts
      let target := later.devices client
      let copy := { target with revision := source.revision, vlans := source.vlans }
      later.registry.lookup source.domain = some source.record ∧
      (target.mode = .client → target.domain = source.domain →
        later.pull client =
          ({ later with devices := Function.update later.devices client copy }, true))) ∧
    (∀ name, (b.pull name).1.pull name = b.pull name ∧
      ((b.publish name).2 = true ↔ (b.devices name).Advertises) ∧
      ((b.publish name).2 = false → (b.publish name).1 = b) ∧
      ((b.pull name).2 = true ↔ (b.devices name).mode = .client ∧
        ∃ record, b.registry.lookup (b.devices name).domain = some record) ∧
      ((b.pull name).2 = false → (b.pull name).1 = b)) ∧
    ∀ id record, s.registry.lookup (s.device id).domain = some record →
      let t := ((s.handleConfig id "vtp mode client").1.handleConfig id "vtp mode server").1
      t.registry = s.registry ∧ t.registry.lookup (s.device id).domain = some record ∧
      t.device id = { s.device id with
        mode := .server, revision := record.revision, vlans := record.vlans } ∧
      ∀ other ≠ id, t.devices[other]? = s.devices[other]? := by
  refine ⟨fun server client acts published quiet => ?_, fun name => ?_, fun id record known => ?_⟩
  · intro source later target copy
    have on_record : later.registry.lookup source.domain = some source.record := by
      rw [Bench.run_registry quiet]
      exact Bench.lookup_publish published
    refine ⟨on_record, fun client home => Bench.pull_some ?_⟩
    rw [Registry.pull_eq_map client, home, on_record]
    rfl
  · exact ⟨Bench.pull_pull, Bench.published_iff, Bench.publish_declined, Bench.pulled_iff,
      Bench.pull_declined⟩
  · intro t
    have client : ConfigCommand.read "vtp mode client" = .ok (.setMode .client) := by decide
    have server : ConfigCommand.read "vtp mode server" = .ok (.setMode .server) := by decide
    have after : t = s.store id (s.registry, ((s.device id).setMode .server).adopt record) := by
      simp only [t, Service.handleConfig_of_read client, Service.handleConfig_of_read server]
      exact Service.setMode_of_follower known .server
    rw [after, Service.store_registry, Service.device_store_self]
    exact ⟨rfl, known, rfl, fun other ne => s.getElem_store_of_ne _ ne⟩

theorem publishing_and_pulling_copy_promotion :
    let server := ({ Device.factory "S1" with domain := "lab", revision := 7 }).insertVlan 10 {}
    let client := { Device.factory "S1" with mode := .client, domain := "lab", pruning := true }
    let b : Bench := ⟨fun name => if name = "left" then server else client, {}⟩
    let later := (b.publish "left").1.run
      [.edit "left" fun d => d.insertVlan 20 {}, .edit "right" Device.bumpRevision]
    let s := (Service.run {} excursion).1
    let t := ((s.handleConfig "C1" "vtp mode client").1.handleConfig "C1" "vtp mode server").1
    later.registry.lookup "lab" = some server.record ∧ (later.devices "left").vlans ≠ server.vlans ∧
      (later.pull "right").2 = true ∧
      (later.pull "right").1.devices "right" =
        { client with revision := 7, vlans := server.vlans } ∧
      (s.device "C1").vlans = (∅ : VlanDatabase).insert 10 ⟨some "users", .normal⟩ ∧
      (t.device "C1").vlans = (∅ : VlanDatabase).insert 20 {} ∧ t.registry = s.registry := by
  intro server client b later s t
  obtain ⟨copies, -, promotes⟩ := publishing_and_pulling_copy b s
  have quiet : ∀ name, Bench.Act.publish name ∉
      [.edit "left" fun d => d.insertVlan 20 {}, .edit "right" Device.bumpRevision] := by
    simp
  obtain ⟨on_record, pulls⟩ := copies "left" "right" _ (by decide) quiet
  let copy := { later.devices "right" with revision := 7, vlans := server.vlans }
  have pulled : later.pull "right" =
      ({ later with devices := Function.update later.devices "right" copy }, true) :=
    pulls (by decide) (by decide)
  obtain ⟨registry, -, device, -⟩ :=
    promotes "C1" ⟨1, (∅ : VlanDatabase).insert 20 {}⟩ (by decide)
  refine ⟨on_record, by decide, ?_, ?_, by decide, ?_, registry⟩
  · rw [pulled]
  · rw [pulled]
    exact Function.update_self "right" copy later.devices
  · exact congrArg Device.vlans device

end VlanTrunking
