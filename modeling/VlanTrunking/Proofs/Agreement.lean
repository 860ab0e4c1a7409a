import VlanTrunking.Proofs.History
import VlanTrunking.Proofs.Report

/-! What a client shows against what the server of its domain shows. Shows leave the registry and
all servers alone, so once a server is the last to have published, every client of its domain
answers with the data of that server, in whatever order the reports are asked for. -/
namespace VlanTrunking

namespace Device

theorem tableText_congr {d e : Device} (h : d.vlans = e.vlans) : d.tableText = e.tableText := by
  unfold tableText
  rw [h]

end Device

/-- A text that shows a revision and a number of VLANs on the lines of a status block. -/
def PrintsStatus (text : String) (revision count : Nat) : Prop :=
  (Text.lines text)[1]? = some ("Configuration Revision: " ++ revision.repr) ∧
    (Text.lines text)[3]? = some ("Number of existing VLANs: " ++ count.repr)

theorem printsStatus_of_record {d e : Device} (h : d.record = e.record) :
    PrintsStatus d.statusText e.revision e.vlans.size := by
  have revision : d.revision = e.revision := congrArg DomainRecord.revision h
  have vlans : d.vlans = e.vlans := congrArg DomainRecord.vlans h
  rw [PrintsStatus, d.lines_statusText, ← revision, ← vlans]
  exact ⟨rfl, rfl⟩

namespace Service

/-- Two states that differ at most in what clients have pulled. -/
structure UpToPulls (s t : Service) : Prop where
  registry : t.registry = s.registry
  devices (id : String) : t.device id = s.device id ∨
    (s.device id).mode = .client ∧ ∃ record, t.device id = (s.device id).adopt record

theorem UpToPulls.refl (s : Service) : UpToPulls s s := ⟨rfl, fun _ => .inl rfl⟩

theorem UpToPulls.trans {s t u : Service} (first : UpToPulls s t) (second : UpToPulls t u) :
    UpToPulls s u where
  registry := second.registry.trans first.registry
  devices id := by
    rcases first.devices id with same | ⟨client, record, pulled⟩
    · rw [← same]
      exact second.devices id
    · rcases second.devices id with same | ⟨_, later, repulled⟩
      · exact .inr ⟨client, record, same.trans pulled⟩
      · exact .inr ⟨client, later, by rw [repulled, pulled]; rfl⟩

theorem upToPulls_query (s : Service) (id : String) (c : ShowCommand) :
    UpToPulls s (s.perform (.query id c)).1 := by
  have untouched : (c.edit (s.device id)).device = s.device id := by cases c <;> rfl
  have silent : ¬(c.edit (s.device id)).Publishes := by
    rintro ⟨t, ht, _, ne⟩
    cases c <;> cases ht <;> exact ne rfl
  have after : (s.perform (.query id c)).1 =
      s.store id (s.registry.settle (c.edit (s.device id))) := s.perform_state (.query id c)
  rw [after]
  constructor
  · rw [store_registry, Registry.settle_registry, if_neg silent]
  · intro other
    rcases eq_or_ne other id with rfl | ne
    · rw [device_store_self]
      rcases s.registry.settle_cases (c.edit (s.device other)) with
        same | ⟨client, record, _, pulled⟩
      · exact .inl (same.trans untouched)
      · rw [untouched] at client pulled
        exact .inr ⟨client, record, pulled⟩
    · exact .inl (device_store_of_ne s _ ne)

def afterShows (s : Service) (shows : List (String × ShowCommand)) : Service :=
  (s.run (shows.map fun q => .query q.1 q.2)).1

theorem upToPulls_afterShows (s : Service) (shows : List (String × ShowCommand)) :
    UpToPulls s (s.afterShows shows) := by
  induction shows generalizing s with
  | nil => exact .refl s
  | cons q rest ih => exact (s.upToPulls_query q.1 q.2).trans (ih _)

theorem report_status (s : Service) (id : String) :
    (s.report id .status).2 = (s.registry.synchronize (s.device id) .statusShown).2.statusText :=
  rfl

theorem report_vlans (s : Service) (id : String) :
    (s.report id .vlans).2 = (s.registry.synchronize (s.device id) .statusShown).2.tableText := rfl

theorem shown_record {s : Service} {id domain : String} {record : DomainRecord}
    (known : s.registry.lookup domain = some record) (home : (s.device id).domain = domain)
    (part : (s.device id).mode = .client ∨
      (s.device id).mode = .server ∧ (s.device id).record = record) :
    (s.registry.synchronize (s.device id) .statusShown).2.record = record := by
  rcases part with client | ⟨server, held⟩
  · have pulls : (s.device id).PullsOn .statusShown := ⟨client, by decide⟩
    rw [Registry.synchronize_device, if_pos pulls, home, known]
    rfl
  · have still : ¬(s.device id).PullsOn .statusShown :=
      fun pulls => Device.not_client_of_server server pulls.1
    rw [Registry.synchronize_device, if_neg still, held]

theorem shown_record_afterShows {s : Service} {id domain : String} {record : DomainRecord}
    (shows : List (String × ShowCommand))
    (known : s.registry.lookup domain = some record) (home : (s.device id).domain = domain)
    (part : (s.device id).mode = .client ∨
      (s.device id).mode = .server ∧ (s.device id).record = record) :
    ((s.afterShows shows).registry.synchronize
      ((s.afterShows shows).device id) .statusShown).2.record = record := by
  have pulls := s.upToPulls_afterShows shows
  rw [← pulls.registry] at known
  rcases pulls.devices id with same | ⟨client, _, pulled⟩
  · rw [← same] at home part
    exact shown_record known home part
  · apply shown_record known
    · rw [pulled, Device.adopt_domain, home]
    · rw [pulled, Device.adopt_mode]
      exact .inl client

end Service

/-- A client of a domain shows the data of the server that was the last to publish into it, even
before the client has caught up, and after any shows on either side. -/
theorem client_shows_server_data (steps : List Step) (server client domain : String)
    (last : lastPublisher? domain (Service.history {} steps) = some server) :
    let s := (Service.run {} steps).1
    (s.device server).mode = .server → (s.device server).domain = domain →
    (s.device client).mode = .client → (s.device client).domain = domain →
    ∀ shows shows' : List (String × ShowCommand),
      ((s.afterShows shows).report client .vlans).2 =
        ((s.afterShows shows').report server .vlans).2 ∧
      PrintsStatus ((s.afterShows shows).report client .status).2
        (s.device server).revision (s.device server).vlans.size ∧
      PrintsStatus ((s.afterShows shows').report server .status).2
        (s.device server).revision (s.device server).vlans.size := by
  intro s speaks home follows joined shows shows'
  have known : s.registry.lookup domain = some (s.device server).record :=
    Service.faithful_of_lastPublisher last speaks home
  have at_client := Service.shown_record_afterShows shows known joined (.inl follows)
  have at_server := Service.shown_record_afterShows shows' known home (.inr ⟨speaks, rfl⟩)
  rw [Service.report_vlans, Service.report_vlans, Service.report_status, Service.report_status]
  refine ⟨?_, printsStatus_of_record at_client, printsStatus_of_record at_server⟩
  exact Device.tableText_congr (congrArg DomainRecord.vlans (at_client.trans at_server.symm))

theorem client_shows_server_data_excursion :
    let s := (Service.run {} excursion).1
    lastPublisher? "lab" (Service.history {} excursion) = some "S1" ∧
      (s.device "C1").vlans ≠ (s.device "S1").vlans ∧
      ((s.afterShows [("S1", .status)]).report "C1" .vlans).2 =
        ((s.afterShows [("C1", .password), ("C1", .vlans)]).report "S1" .vlans).2 ∧
      PrintsStatus ((s.afterShows [("S1", .status)]).report "C1" .status).2
        (s.device "S1").revision (s.device "S1").vlans.size := by
  intro s
  have last : lastPublisher? "lab" (Service.history {} excursion) = some "S1" := by decide
  have behind : (s.device "C1").vlans ≠ (s.device "S1").vlans := by decide
  obtain ⟨tables, status, -⟩ := client_shows_server_data excursion "S1" "C1" "lab" last
    (by decide) (by decide) (by decide) (by decide)
    [("S1", .status)] [("C1", .password), ("C1", .vlans)]
  exact ⟨last, behind, tables, status⟩

end VlanTrunking
