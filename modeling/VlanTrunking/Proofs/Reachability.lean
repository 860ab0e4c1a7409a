import VlanTrunking.Proofs.Connections
import VlanTrunking.Settings.Basic

/-! Whether the endpoint of a valid configuration can be reached. The path of a request ends where
its query or its fragment begins, so no request has a path with a question mark or a number sign in
it. A request for the endpoint itself, if HTTP lets it through, gets there if the endpoint has
neither of them; an endpoint with one of them passes validation as well, and then every client is
refused. -/
namespace VlanTrunking

section

variable {door : Entrance} {target : String}

theorem AsksFor.plain (asks : AsksFor door target) (documented : door.Documented) :
    PlainPath door.path :=
  documented.plain target door.path asks

theorem pathOf_self {path : String} (plain : PlainPath path)
    (absolute : path.toList.head? = some '/') : PathOf path path := by
  have some_left : path.toList ≠ [] := by
    intro none_left
    rw [none_left] at absolute
    cases absolute
  exact ⟨path.toList, [], by simp, plain, by simp, by rw [if_neg some_left, String.ofList_toList]⟩

theorem not_served_of_marked (documented : door.Documented) (marked : ¬PlainPath door.path)
    (past : List ClientStep) (client : Nat) : ¬Served door past client := by
  rintro ⟨_, _, asks, _⟩
  exact marked (asks.plain documented)

theorem Endpoint.refuses_of_marked (documented : door.Documented) (marked : ¬PlainPath door.path)
    (x : Endpoint) (c : ConsoleSettings) {path : String} (taken : door.pathOf? target = some path) :
    (x.step door c (.connect target)).2 = .notFound := by
  have astray : path ≠ door.path := by
    rintro rfl
    exact marked (documented.plain target _ taken)
  rw [x.step_astray taken astray]

end

/-- If the endpoint of a valid configuration is a plain path, then a client that asks for it is
accepted exactly if HTTP lets the request through. Otherwise no client is accepted, whatever it asks
for and whenever it comes. -/
theorem valid_endpoint_reached_iff_plain {s : Settings} {c : ServerConfig} {door : Entrance}
    (valid : s.validate = .ok c) (own : door.path = c.wsPath) (documented : door.Documented) :
    (PlainPath c.wsPath → ∀ x : Endpoint,
      (x.step door c.console (.connect c.wsPath)).2 = .served [greeting] ↔
        (door.pathOf? c.wsPath).isSome) ∧
    (¬PlainPath c.wsPath →
      (∀ (x : Endpoint) (target path : String), door.pathOf? target = some path →
        (x.step door c.console (.connect target)).2 = .notFound) ∧
      ∀ past client, ¬Served door past client) := by
  have absolute : c.wsPath.toList.head? = some '/' := by
    obtain ⟨_, _, absolute, rfl⟩ := Settings.validate_eq_ok_iff.mp valid
    exact absolute
  rw [← own] at absolute ⊢
  constructor
  · intro plain x
    cases taken : door.pathOf? door.path with
    | none =>
      rw [x.step_dropped taken]
      simp
    | some path =>
      have asks : AsksFor door door.path :=
        (asksFor_iff_of_origin documented absolute (by simp [taken])).mpr
          (pathOf_self plain absolute)
      rw [x.step_asks asks]
      simp
  · intro marked
    exact ⟨fun x _ _ => x.refuses_of_marked documented marked c.console,
      not_served_of_marked documented marked⟩

theorem valid_endpoint_reached_iff_plain_escaped :
    let s : Settings := { wsPath := "/sim/%3F" }
    let c : ServerConfig := ⟨⟨.v4 ⟨0, 0, 0, 0⟩, defaultPort⟩, "/sim/%3F", {}, "info"⟩
    s.validate = .ok c ∧ PlainPath c.wsPath ∧
      (({} : Endpoint).step c.wsPath c.console (.connect c.wsPath)).2 = .served [greeting] := by
  intro s c
  have valid : s.validate = .ok c := by decide
  have plain : PlainPath c.wsPath := by decide
  obtain ⟨reached, -⟩ :=
    valid_endpoint_reached_iff_plain valid rfl (Entrance.documented_ofPath c.wsPath)
  exact ⟨valid, plain, (reached plain {}).mpr rfl⟩

/-- An endpoint with a query passes validation, but every client is refused, also one that asks for
just this endpoint. -/
theorem endpoint_with_query_refuses :
    let s : Settings := { wsPath := "/sim?lab=1" }
    let c : ServerConfig := ⟨⟨.v4 ⟨0, 0, 0, 0⟩, defaultPort⟩, "/sim?lab=1", {}, "info"⟩
    s.validate = .ok c ∧
      (Entrance.ofPath c.wsPath).Documented ∧
      (Entrance.ofPath c.wsPath).pathOf? c.wsPath = some "/sim" ∧
      ∀ door : Entrance, door.path = c.wsPath → door.Documented →
        ∀ target path, door.pathOf? target = some path → path ≠ c.wsPath ∧
          (({} : Endpoint).step door c.console (.connect target)).2 = .notFound := by
  intro s c
  have marked : ¬PlainPath c.wsPath := by decide
  refine ⟨by decide, Entrance.documented_ofPath _, by decide, fun door own documented => ?_⟩
  intro target path taken
  rw [← own] at marked ⊢
  refine ⟨?_, ({} : Endpoint).refuses_of_marked documented marked c.console taken⟩
  rintro rfl
  exact marked (documented.plain target _ taken)

end VlanTrunking
