import VlanTrunking.Console.Session
import VlanTrunking.Proofs.JsonText

/-! Requests and events on the wire. What is written for an event or a request is read as the same
event or request again, whatever characters its texts are made of, so a request may as well come in
as it would be written. -/
namespace VlanTrunking

namespace Json

theorem string?_unitsOf (s : String) : (scalar (.string (unitsOf s))).string? = some s :=
  textOf?_unitsOf s

theorem stringOrNull?_unitsOf (s : String) :
    (scalar (.string (unitsOf s))).stringOrNull? = some (some s) := by
  change (textOf? (unitsOf s)).map some = some (some s)
  rw [textOf?_unitsOf, Option.map_some]

theorem textMembers?_writtenMember (members : List (String × Scalar)) :
    textMembers? (members.map writtenMember) =
      some (members.map fun (key, v) => (key, scalar v)) := by
  induction members with
  | nil => rfl
  | cons member rest ih =>
    unfold textMembers? at ih ⊢
    simp [writtenMember, textOf?_unitsOf, ih]

end Json

open Json (Scalar Spells spells_quote unitsOf writtenMember)

namespace ConsoleEvent

def textMember (member : String × String) : String × Scalar :=
  (member.1, .string (unitsOf member.2))

theorem spells_members (member : String × String) (rest : List (String × String)) :
    Spells (",".intercalate ((member :: rest).map fun (key, v) =>
        Json.quote key ++ ":" ++ Json.quote v))
      (Json.memberTokens ((member :: rest).map textMember)) := by
  have colon : Spells ":" [.colon] := fun _ => rfl
  have comma : Spells "," [.comma] := fun _ => rfl
  induction rest generalizing member with
  | nil =>
    have one := ((spells_quote member.1).append colon).append (spells_quote member.2)
    simpa [Json.memberTokens, textMember] using one
  | cons next rest ih =>
    have one := ((spells_quote member.1).append colon).append (spells_quote member.2)
    have all := (one.append comma).append (ih next)
    rw [List.map_cons, String.intercalate_cons_of_ne_nil (by simp)]
    exact all

theorem read?_encodeMembers (member : String × String) (rest : List (String × String)) :
    Json.read? (encodeMembers (member :: rest)) =
      some (.object (((member :: rest).map textMember).map writtenMember)) := by
  have opened : Spells "\x7b" [.openBrace] := fun _ => rfl
  have closed : Spells "\x7d" [.closeBrace] := fun _ => rfl
  exact Json.read?_of_spells ((opened.append (spells_members member rest)).append closed)

theorem isPlain_textMembers (depth : Nat) (members : List (String × String)) :
    (Json.object ((members.map textMember).map writtenMember)).isPlain (depth + 1) = true := by
  simp [Json.isPlain, textMember, writtenMember, Json.textOf?_unitsOf]

theorem decode?_encodeMembers (member : String × String) (rest : List (String × String)) :
    decode? (encodeMembers (member :: rest)) =
      let members := ((member :: rest).map textMember).map fun (key, v) => (key, Json.scalar v)
      (Json.member members "event" Json.string? none).bind (ofMembers? · members) := by
  have plain : (Json.object (((member :: rest).map textMember).map writtenMember)).isPlain
      nestingLimit = true := isPlain_textMembers 126 _
  rw [decode?, read?_encodeMembers, Option.bind_some, if_pos plain, ofJson?,
    Json.textMembers?_writtenMember]
  rfl

theorem decode?_encode (e : ConsoleEvent) : decode? e.encode = some e := by
  cases e with
  | log message origin =>
    cases origin with
    | none =>
      rw [encode, decode?_encodeMembers]
      simp [Json.member, textMember, ofMembers?, Json.string?_unitsOf]
    | some origin =>
      rw [encode, decode?_encodeMembers]
      simp [Json.member, textMember, ofMembers?, Json.string?_unitsOf, Json.stringOrNull?_unitsOf]
  | flow source target protocol =>
    rw [encode, decode?_encodeMembers]
    simp [Json.member, textMember, ofMembers?, Json.string?_unitsOf]

theorem tag_of_encode (e : ConsoleEvent) :
    ∃ members, Json.read? e.encode = some (.object members) ∧
      (Json.textMembers? members).bind (Json.member · "event" Json.string? none) = some e.tag := by
  have tagged : ∃ rest : List (String × String), (∀ member ∈ rest, member.1 ≠ "event") ∧
      e.encode = encodeMembers (("event", e.tag) :: rest) := by
    cases e with
    | log message origin =>
      cases origin with
      | none => exact ⟨[("message", message)], by simp, rfl⟩
      | some origin => exact ⟨[("message", message), ("origin", origin)], by simp, rfl⟩
    | flow source target protocol =>
      exact ⟨[("from", source), ("to", target), ("proto", protocol)], by simp, rfl⟩
  obtain ⟨rest, others, written⟩ := tagged
  refine ⟨_, written ▸ read?_encodeMembers _ rest, ?_⟩
  have alone : rest.filter (fun member => member.1 = "event") = [] := by simpa using others
  rw [Json.textMembers?_writtenMember, Option.bind_some]
  simp [Json.member, textMember, List.filter_map, Function.comp_def, alone, Json.string?_unitsOf]

end ConsoleEvent

namespace CommandRequest

def nodeScalar (r : CommandRequest) : Scalar :=
  match r.node with
  | some node => .string (unitsOf node)
  | none => .null

theorem stringOrNull?_nodeScalar (r : CommandRequest) :
    (Json.scalar r.nodeScalar).stringOrNull? = some r.node := by
  unfold nodeScalar
  cases r.node with
  | none => rfl
  | some node => exact Json.stringOrNull?_unitsOf node

theorem spells_encode (r : CommandRequest) :
    Spells r.encode (Json.objectTokens
      [("command", .string (unitsOf r.command)), ("node", r.nodeScalar)]) := by
  have opened : Spells "\x7b\"command\":"
      [.openBrace, .scalar (.string (unitsOf "command")), .colon] := fun _ => rfl
  have between : Spells ",\"node\":" [.comma, .scalar (.string (unitsOf "node")), .colon] :=
    fun _ => rfl
  have start := (opened.append (spells_quote r.command)).append between
  unfold encode nodeScalar
  cases r.node with
  | none =>
    have ending : Spells ("null" ++ "\x7d") [.scalar .null, .closeBrace] := fun _ => rfl
    dsimp only
    rw [String.append_assoc]
    exact start.append ending
  | some node =>
    have closed : Spells "\x7d" [.closeBrace] := fun _ => rfl
    exact (start.append (spells_quote node)).append closed

theorem decode?_encode (r : CommandRequest) : decode? r.encode = some r := by
  rw [decode?, Json.read?_of_spells r.spells_encode, Option.bind_some, ofJson?,
    Json.textMembers?_writtenMember]
  simp [Json.member, Json.string?_unitsOf, stringOrNull?_nodeScalar]

end CommandRequest

theorem Service.receive_encode {raw : String} {r : CommandRequest}
    (decoded : CommandRequest.decode? raw = some r) (c : ConsoleSettings) (s : Service) :
    s.receive c r.encode = s.receive c raw := by
  rw [receive, receive, decoded, r.decode?_encode]

/-- Events and requests are read back from what is written for them, events under their tags; and a
text frame with a request has the effect and the events of the request as it would be written. -/
theorem wire_texts_read_back :
    (∀ e : ConsoleEvent, ConsoleEvent.decode? e.encode = some e ∧
      ∃ members, Json.read? e.encode = some (.object members) ∧
        (Json.textMembers? members).bind (Json.member · "event" Json.string? none) = some e.tag) ∧
    (∀ r : CommandRequest, CommandRequest.decode? r.encode = some r) ∧
    ∀ raw r, CommandRequest.decode? raw = some r → ∀ (c : ConsoleSettings) (x : Exchange) session,
      x.step c ⟨session, .text raw⟩ = x.step c ⟨session, .text r.encode⟩ := by
  refine ⟨fun e => ⟨e.decode?_encode, e.tag_of_encode⟩, fun r => r.decode?_encode, ?_⟩
  intro raw r decoded c x session
  have received := Service.receive_encode decoded c x.service
  simp only [Exchange.step, Exchange.respond, received]

theorem wire_texts_read_back_respelled :
    let raw := "\x7b \"node\" : \" SW1\", \"x\" : [1], \"comm\\u0061nd\":\"vlan \\u00310\" \x7d"
    let r : CommandRequest := { command := "vlan 10", node := some " SW1" }
    CommandRequest.decode? raw = some r ∧ raw ≠ r.encode ∧
      Exchange.step {} {} ⟨0, .text raw⟩ = Exchange.step {} {} ⟨0, .text r.encode⟩ := by
  intro raw r
  have decoded : CommandRequest.decode? raw = some r := by decide +kernel
  exact ⟨decoded, by decide, wire_texts_read_back.2.2 raw r decoded {} {} 0⟩

end VlanTrunking
