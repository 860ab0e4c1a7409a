import VlanTrunking.Proofs.Words
import VlanTrunking.Service.Route
import VlanTrunking.Service.Step

/-! What becomes of a line of text. A line that is routed to a handler and can be read is one step
of the service, whose outcome is the reply; every other line leaves the service alone. -/
namespace VlanTrunking

theorem LineFamily.ofLine_trim (line : String) : ofLine (Text.trim line) = ofLine line := by
  rw [ofLine, ofLine, Text.trim_trim]

def shownOutcome : Except CommandError String → String
  | .ok reply => reply
  | .error e => e.message

namespace Service

variable {s : Service} {id line : String}

theorem handleConfig_of_unread {e : CommandError} (unread : ConfigCommand.read line = .error e) :
    s.handleConfig id line = (s, e.message) := by
  rw [handleConfig, unread]

theorem handleConfig_of_read {c : ConfigCommand} (read : ConfigCommand.read line = .ok c) :
    s.handleConfig id line =
      ((s.perform (.config id c)).1, shownOutcome (s.perform (.config id c)).2) := by
  simp only [handleConfig, read, perform]
  split <;> next outcome => simp [outcome, shownOutcome]

theorem handleShow_of_unread {e : CommandError} (unread : ShowCommand.read line = .error e) :
    s.handleShow id line = (s, e.message) := by
  rw [handleShow, unread]

theorem handleShow_of_read {c : ShowCommand} (read : ShowCommand.read line = .ok c) :
    s.handleShow id line =
      ((s.perform (.query id c)).1, shownOutcome (s.perform (.query id c)).2) := by
  simp only [handleShow, read, perform, shownOutcome]

theorem handleConfig_trim : s.handleConfig id (Text.trim line) = s.handleConfig id line := by
  rw [handleConfig, handleConfig, ConfigCommand.read, ConfigCommand.read, Text.words_trim]

theorem handleShow_trim : s.handleShow id (Text.trim line) = s.handleShow id line := by
  rw [handleShow, handleShow, ShowCommand.read, ShowCommand.read, Text.words_trim]

theorem route_of_config (family : LineFamily.ofLine line = .config) :
    s.route id line = ((s.handleConfig id line).1, .reply (s.handleConfig id line).2) := by
  simp only [route, LineFamily.ofLine_trim, family, handleConfig_trim]

theorem route_of_query (family : LineFamily.ofLine line = .query) :
    s.route id line = ((s.handleShow id line).1, .reply (s.handleShow id line).2) := by
  simp only [route, LineFamily.ofLine_trim, family, handleShow_trim]

theorem route_of_neither (id : String) (not_config : LineFamily.ofLine line ≠ .config)
    (not_query : LineFamily.ofLine line ≠ .query) :
    ∃ answer, ∀ s : Service, s.route id line = (s, answer) := by
  cases family : LineFamily.ofLine line with
  | empty =>
    refine ⟨.rejected .emptyCommand, fun s => ?_⟩
    simp only [route, LineFamily.ofLine_trim, family]
  | unknown =>
    refine ⟨.rejected (.unknownCommand (Text.trim line)), fun s => ?_⟩
    simp only [route, LineFamily.ofLine_trim, family]
  | ping =>
    let target := (Text.words (Text.trim line))[1]?.getD defaultPingTarget
    refine ⟨.ping target, fun s => ?_⟩
    simp only [route, LineFamily.ofLine_trim, family, target]
  | config => exact absurd family not_config
  | query => exact absurd family not_query

theorem route_of_unanswered (unanswered : ∀ text, (s.route id line).2 ≠ .reply text) :
    (s.route id line).1 = s := by
  by_cases config : LineFamily.ofLine line = .config
  · rw [route_of_config config] at unanswered
    exact absurd rfl (unanswered _)
  by_cases query : LineFamily.ofLine line = .query
  · rw [route_of_query query] at unanswered
    exact absurd rfl (unanswered _)
  obtain ⟨answer, idle⟩ := route_of_neither id config query
  rw [idle]

/-- What a line asks for does not hang on the service: it is told off or left to the caller with
nothing done, or it is a step, whose outcome is the reply. -/
theorem route_cases (id line : String) :
    (∃ answer, ∀ s : Service, s.route id line = (s, answer)) ∨
      ∃ step : Step, step.device = id ∧ ∀ s : Service,
        s.route id line = ((s.perform step).1, .reply (shownOutcome (s.perform step).2)) := by
  by_cases config : LineFamily.ofLine line = .config
  · cases read : ConfigCommand.read line with
    | error e =>
      refine .inl ⟨.reply e.message, fun s => ?_⟩
      rw [route_of_config config, handleConfig_of_unread read]
    | ok c =>
      refine .inr ⟨.config id c, rfl, fun s => ?_⟩
      rw [route_of_config config, handleConfig_of_read read]
  by_cases query : LineFamily.ofLine line = .query
  · cases read : ShowCommand.read line with
    | error e =>
      refine .inl ⟨.reply e.message, fun s => ?_⟩
      rw [route_of_query query, handleShow_of_unread read]
    | ok c =>
      refine .inr ⟨.query id c, rfl, fun s => ?_⟩
      rw [route_of_query query, handleShow_of_read read]
  obtain ⟨answer, idle⟩ := route_of_neither id config query
  exact .inl ⟨answer, idle⟩

end Service

end VlanTrunking
