import VlanTrunking.Proofs.History

/-! Who can learn of whom. A run is compared with the run in which the steps of one device are left
out, and with the run of its own steps alone. A device that never speaks for a domain is invisible
to all others; a device that never follows one sees nothing of them. -/
namespace VlanTrunking

namespace Service

def transcript (s : Service) (steps : List Step) : List (Step × Except CommandError String) :=
  steps.zip (s.run steps).2

@[simp] theorem transcript_cons (s : Service) (step : Step) (rest : List Step) :
    s.transcript (step :: rest) =
      (step, (s.perform step).2) :: (s.perform step).1.transcript rest := rfl

structure AgreeExcept (id : String) (s t : Service) : Prop where
  registry : t.registry = s.registry
  devices (other : String) : other ≠ id → t.devices[other]? = s.devices[other]?

theorem AgreeExcept.device {id other : String} {s t : Service} (agree : AgreeExcept id s t)
    (ne : other ≠ id) : t.device other = s.device other := by
  rw [device_eq_getElem, device_eq_getElem, agree.devices other ne]

theorem agreeExcept_perform_own {id : String} {s t : Service} {step : Step}
    (agree : AgreeExcept id s t) (own : step.device = id)
    (silent : ¬((s.perform step).1.device step.device).Advertises) :
    AgreeExcept id (s.perform step).1 t := by
  subst own
  rw [perform_state] at silent ⊢
  rw [device_store_self, Registry.settle_advertises] at silent
  have unpublished := mt Edit.Publishes.advertises silent
  refine ⟨?_, fun other ne => ?_⟩
  · rw [store_registry, Registry.settle_registry, if_neg unpublished, agree.registry]
  · rw [getElem_store_of_ne _ _ ne, agree.devices other ne]

theorem agreeExcept_perform_other {id : String} {s t : Service} {step : Step}
    (agree : AgreeExcept id s t) (other : step.device ≠ id) :
    AgreeExcept id (s.perform step).1 (t.perform step).1 ∧
      (t.perform step).2 = (s.perform step).2 := by
  rw [perform_eq, perform_eq, agree.registry, agree.device other]
  refine ⟨⟨rfl, fun third ne => ?_⟩, rfl⟩
  rcases eq_or_ne third step.device with rfl | away
  · rw [getElem_store_self, getElem_store_self]
  · rw [getElem_store_of_ne _ _ away, getElem_store_of_ne _ _ away, agree.devices third ne]

/-- The unwinding: the purged run keeps agreeing with the full one on everything but the device
whose steps it leaves out. -/
theorem agreeExcept_run {id : String} {s t : Service} (agree : AgreeExcept id s t)
    {steps : List Step}
    (silent : ∀ m ∈ s.history steps, m.step.device = id → ¬m.left.Advertises) :
    let purged := steps.filter fun step => step.device ≠ id
    AgreeExcept id (s.run steps).1 (t.run purged).1 ∧
      (s.transcript steps).filter (fun entry => entry.1.device ≠ id) = t.transcript purged := by
  induction steps generalizing s t with
  | nil => exact ⟨agree, rfl⟩
  | cons step rest ih =>
    rw [history, List.forall_mem_cons] at silent
    by_cases own : step.device = id
    · have next := agreeExcept_perform_own agree own (silent.1 own)
      simpa [own] using ih next silent.2
    · obtain ⟨next, reply⟩ := agreeExcept_perform_other agree own
      simpa [own, reply] using ih next silent.2

theorem perform_own {id : String} {s t : Service} {step : Step}
    (same : t.devices[id]? = s.devices[id]?) (own : step.device = id)
    (server : ((s.perform step).1.device step.device).mode ≠ .client) :
    (t.perform step).1.devices[id]? = (s.perform step).1.devices[id]? ∧
      (t.perform step).2 = (s.perform step).2 := by
  subst own
  have device : t.device step.device = s.device step.device := by
    rw [device_eq_getElem, device_eq_getElem, same]
  rw [perform_state, device_store_self, Registry.settle_mode] at server
  rw [perform_eq, perform_eq, device]
  dsimp only
  rw [getElem_store_self, getElem_store_self, Registry.settle_of_not_client _ server,
    Registry.settle_of_not_client _ server]
  exact ⟨rfl, rfl⟩

theorem run_own {id : String} {s t : Service} (same : t.devices[id]? = s.devices[id]?)
    {steps : List Step}
    (server : ∀ m ∈ s.history steps, m.step.device = id → m.left.mode ≠ .client) :
    let kept := steps.filter fun step => step.device = id
    (t.run kept).1.devices[id]? = (s.run steps).1.devices[id]? ∧
      (s.transcript steps).filter (fun entry => entry.1.device = id) = t.transcript kept := by
  induction steps generalizing s t with
  | nil => exact ⟨same, rfl⟩
  | cons step rest ih =>
    rw [history, List.forall_mem_cons] at server
    by_cases own : step.device = id
    · obtain ⟨next, reply⟩ := perform_own same own (server.1 own)
      simpa [own, reply] using ih next server.2
    · have next : t.devices[id]? = (s.perform step).1.devices[id]? := by
        rw [perform_state, getElem_store_of_ne _ _ (Ne.symm own), same]
      simpa [own] using ih next server.2

end Service

/-- A device that is never left advertising can be taken out of a run without anyone noticing, and
one that is never left a client fares as if its own steps were all there is to the run. -/
theorem flow_only_from_publishers_to_clients (s : Service) (steps : List Step) (id : String) :
    ((∀ m ∈ s.history steps, m.step.device = id → ¬m.left.Advertises) →
      let purged := steps.filter fun step => step.device ≠ id
      (s.transcript steps).filter (fun entry => entry.1.device ≠ id) = s.transcript purged ∧
      (∀ other, other ≠ id → (s.run purged).1.devices[other]? = (s.run steps).1.devices[other]?) ∧
      (s.run purged).1.registry = (s.run steps).1.registry) ∧
    ((∀ m ∈ s.history steps, m.step.device = id → m.left.mode ≠ .client) →
      let kept := steps.filter fun step => step.device = id
      (s.transcript steps).filter (fun entry => entry.1.device = id) = s.transcript kept ∧
      (s.run kept).1.devices[id]? = (s.run steps).1.devices[id]?) := by
  constructor
  · intro silent
    obtain ⟨agree, replies⟩ :=
      Service.agreeExcept_run ⟨rfl, fun _ _ => rfl⟩ silent
    exact ⟨replies, agree.devices, agree.registry⟩
  · intro server
    obtain ⟨same, replies⟩ := Service.run_own rfl server
    exact ⟨replies, same⟩

def bystander : List Step :=
  [.config "T1" (.setMode .transparent), .config "T1" (.setDomain "lab"),
    .config "T1" (.defineVlans [30] none), .config "S1" (.defineVlans [40] none),
    .query "C1" .vlans, .config "T1" (.removeVlans [30, 40]), .query "T1" .vlans]

theorem flow_only_from_publishers_to_clients_bystander :
    let s := (Service.run {} excursion).1
    let purged := bystander.filter fun step => step.device ≠ "T1"
    let kept := bystander.filter fun step => step.device = "T1"
    ((s.transcript bystander).filter (fun entry => entry.1.device ≠ "T1") = s.transcript purged ∧
      (∀ other, other ≠ "T1" →
        (s.run purged).1.devices[other]? = (s.run bystander).1.devices[other]?) ∧
      (s.run purged).1.registry = (s.run bystander).1.registry) ∧
    (s.transcript bystander).filter (fun entry => entry.1.device = "T1") = s.transcript kept ∧
    (s.run kept).1.devices["T1"]? = (s.run bystander).1.devices["T1"]? := by
  intro s purged kept
  have silent : ∀ m ∈ s.history bystander, m.step.device = "T1" → ¬m.left.Advertises := by decide
  have server : ∀ m ∈ s.history bystander, m.step.device = "T1" → m.left.mode ≠ .client := by
    decide
  obtain ⟨invisible, blind⟩ := flow_only_from_publishers_to_clients s bystander "T1"
  exact ⟨invisible silent, blind server⟩

end VlanTrunking
