import Mathlib.Data.List.Perm.Basic
import Mathlib.Logic.Relation
import VlanTrunking.Console.Request
import VlanTrunking.Proofs.JsonGrammar

/-! Requests are read by the keys of their members. What a request asks is what is given for its two
keys, each once at most; so the order of the members, members under other keys, the spelling of a
key and the gaps between the tokens make no difference. -/
namespace VlanTrunking

open Json (TextUnit LaidOut textOf? tokensOf textMembers? member)

abbrev Json.Members := List (List TextUnit × Json)

namespace Json.Members

variable {members members' : Members}

def Keyed (members : Members) : Prop := ∀ m ∈ members, ∃ key, textOf? m.1 = some key

def valuesOf (members : Members) (key : String) : List Json :=
  (members.filter fun m => textOf? m.1 = some key).map (·.2)

inductive Gives {α : Type} (read : Json → Option α) (default : α) : List Json → α → Prop
  | missing : Gives read default [] default
  | once {v : Json} {a : α} : read v = some a → Gives read default [v] a

/-- A member that a request has no use for: its key is a text, and none of the two. -/
def PassedOver (m : List TextUnit × Json) : Prop :=
  ∃ key, textOf? m.1 = some key ∧ key ≠ "command" ∧ key ≠ "node"

/-- One way to write the members of a request otherwise. -/
inductive Rearranged : Members → Members → Prop
  | permuted {members members' : Members} : members.Perm members' → Rearranged members members'
  | inserted {before after : Members} {m : List TextUnit × Json} :
      PassedOver m → Rearranged (before ++ after) (before ++ m :: after)
  | deleted {before after : Members} {m : List TextUnit × Json} :
      PassedOver m → Rearranged (before ++ m :: after) (before ++ after)
  | respelled {before after : Members} {key key' : List TextUnit} {v : Json} :
      textOf? key = textOf? key' →
      Rearranged (before ++ (key, v) :: after) (before ++ (key', v) :: after)

theorem exists_textMembers? (keyed : members.Keyed) :
    ∃ pairs, textMembers? members = some pairs := by
  induction members with
  | nil => exact ⟨[], rfl⟩
  | cons m rest ih =>
    obtain ⟨⟨key, text⟩, later⟩ := List.forall_mem_cons.mp keyed
    obtain ⟨pairs, read⟩ := ih later
    exact ⟨(key, m.2) :: pairs, by simp_all [textMembers?]⟩

theorem of_textMembers? {pairs : List (String × Json)}
    (h : textMembers? members = some pairs) : members.Keyed ∧
      ∀ key, (pairs.filter (·.1 = key)).map (·.2) = members.valuesOf key := by
  induction members generalizing pairs with
  | nil =>
    cases h
    exact ⟨by simp [Keyed], fun _ => rfl⟩
  | cons m rest ih =>
    unfold textMembers? at h
    rw [List.mapM_cons] at h
    obtain ⟨pair, first, h⟩ := Option.bind_eq_some_iff.mp h
    obtain ⟨later, read, h⟩ := Option.bind_eq_some_iff.mp h
    cases h
    obtain ⟨text, spelt, rfl⟩ := Option.map_eq_some_iff.mp first
    obtain ⟨keyed, values⟩ := ih read
    refine ⟨List.forall_mem_cons.mpr ⟨⟨text, spelt⟩, keyed⟩, fun key => ?_⟩
    have rest_values := values key
    by_cases same : text = key <;> simp_all [valuesOf]

theorem member_eq_some_iff {α : Type} {read : Json → Option α} {default a : α}
    {pairs : List (String × Json)} {key : String} :
    member pairs key read (some default) = some a ↔
      Gives read default ((pairs.filter (·.1 = key)).map (·.2)) a := by
  unfold member
  generalize pairs.filter (·.1 = key) = given
  rcases given with _ | ⟨m, _ | ⟨m', rest⟩⟩
  · constructor
    · rintro ⟨⟩
      exact .missing
    · rintro ⟨⟩
      rfl
  · constructor
    · exact .once
    · rintro (_ | read)
      exact read
  · constructor
    · rintro ⟨⟩
    · rintro ⟨⟩

theorem Gives.of_perm {α : Type} {read : Json → Option α} {default a : α}
    {values values' : List Json} (gives : Gives read default values a)
    (perm : values.Perm values') : Gives read default values' a := by
  cases gives with
  | missing =>
    rw [List.nil_perm.mp perm]
    exact .missing
  | once read =>
    rw [← List.singleton_perm.mp perm]
    exact .once read

theorem Rearranged.symm (h : Rearranged members members') : Rearranged members' members := by
  cases h with
  | permuted perm => exact .permuted perm.symm
  | inserted passed => exact .deleted passed
  | deleted passed => exact .inserted passed
  | respelled same => exact .respelled same.symm

instance : Std.Symm Rearranged := ⟨fun _ _ => Rearranged.symm⟩

theorem Rearranged.keyed (h : Rearranged members members') (keyed : members.Keyed) :
    members'.Keyed := by
  cases h with
  | permuted perm => exact fun m listed => keyed m (perm.mem_iff.mpr listed)
  | inserted passed =>
    obtain ⟨key, text, -⟩ := passed
    simp only [Keyed, List.forall_mem_append, List.forall_mem_cons] at keyed ⊢
    exact ⟨keyed.1, ⟨key, text⟩, keyed.2⟩
  | deleted passed =>
    simp only [Keyed, List.forall_mem_append, List.forall_mem_cons] at keyed ⊢
    exact ⟨keyed.1, keyed.2.2⟩
  | respelled same =>
    simp only [Keyed, List.forall_mem_append, List.forall_mem_cons] at keyed ⊢
    rwa [← same]

theorem valuesOf_append (members members' : Members) (key : String) :
    (members ++ members').valuesOf key = members.valuesOf key ++ members'.valuesOf key := by
  simp [valuesOf]

theorem valuesOf_passedOver {m : List TextUnit × Json} (passed : PassedOver m) {key : String}
    (read : key = "command" ∨ key = "node") :
    valuesOf (m :: members) key = members.valuesOf key := by
  obtain ⟨other, text, no_command, no_node⟩ := passed
  have differs : other ≠ key := by rcases read with rfl | rfl <;> assumption
  simp [valuesOf, text, differs]

theorem valuesOf_respelled {spelling spelling' : List TextUnit} {v : Json}
    (same : textOf? spelling = textOf? spelling') (key : String) :
    valuesOf ((spelling, v) :: members) key = valuesOf ((spelling', v) :: members) key := by
  by_cases asked : textOf? spelling' = some key <;> simp [valuesOf, same, asked]

theorem Rearranged.valuesOf (h : Rearranged members members') {key : String}
    (read : key = "command" ∨ key = "node") :
    (members.valuesOf key).Perm (members'.valuesOf key) := by
  cases h with
  | permuted perm => exact (perm.filter _).map _
  | inserted passed => rw [valuesOf_append, valuesOf_append, valuesOf_passedOver passed read]
  | deleted passed => rw [valuesOf_append, valuesOf_append, valuesOf_passedOver passed read]
  | respelled same => rw [valuesOf_append, valuesOf_append, valuesOf_respelled same]

end Json.Members

namespace CommandRequest

open Json.Members

def Asks (members : Json.Members) (r : CommandRequest) : Prop :=
  members.Keyed ∧ Gives Json.string? "" (members.valuesOf "command") r.command ∧
    Gives Json.stringOrNull? none (members.valuesOf "node") r.node

variable {members members' : Json.Members} {r : CommandRequest}

theorem ofJson?_object_eq_some_iff :
    ofJson? (.object members) = some r ↔ Asks members r := by
  simp only [ofJson?, Option.bind_eq_bind, Option.bind_eq_some_iff]
  constructor
  · rintro ⟨pairs, read, command, given_command, node, given_node, ⟨⟩⟩
    obtain ⟨keyed, values⟩ := of_textMembers? read
    rw [member_eq_some_iff, values] at given_command given_node
    exact ⟨keyed, given_command, given_node⟩
  · rintro ⟨keyed, given_command, given_node⟩
    obtain ⟨pairs, read⟩ := exists_textMembers? keyed
    obtain ⟨-, values⟩ := of_textMembers? read
    rw [← values, ← member_eq_some_iff] at given_command given_node
    exact ⟨pairs, read, r.command, given_command, r.node, given_node, rfl⟩

theorem Asks.of_rearranged (asks : Asks members r) (h : Rearranged members members') :
    Asks members' r :=
  ⟨h.keyed asks.1, asks.2.1.of_perm (h.valuesOf (.inl rfl)),
    asks.2.2.of_perm (h.valuesOf (.inr rfl))⟩

theorem Asks.of_rearrangements (asks : Asks members r)
    (h : Relation.ReflTransGen Rearranged members members') : Asks members' r := by
  induction h with
  | refl => exact asks
  | tail _ last ih => exact ih.of_rearranged last

theorem decode?_eq_some_iff {text : String}
    (laid : LaidOut (tokensOf (.object members)) text.toList) :
    decode? text = some r ↔ Asks members r := by
  rw [decode?, Json.read?_eq_some_iff.mpr laid, Option.bind_some, ofJson?_object_eq_some_iff]

/-- Texts of objects whose members are arranged otherwise are read as the same request, or none of
them is. -/
theorem requests_are_read_by_key (members members' : Json.Members) (text text' : String)
    (laid : LaidOut (tokensOf (.object members)) text.toList)
    (laid' : LaidOut (tokensOf (.object members')) text'.toList) :
    (∀ r, decode? text = some r ↔ Asks members r) ∧
      (Relation.ReflTransGen Rearranged members members' → decode? text = decode? text') := by
  refine ⟨fun r => decode?_eq_some_iff laid, fun rearranged => Option.ext fun r => ?_⟩
  have back : Relation.ReflTransGen Rearranged members' members :=
    Relation.ReflTransGen.stdSymm.symm _ _ rearranged
  rw [decode?_eq_some_iff laid, decode?_eq_some_iff laid']
  exact ⟨fun asks => asks.of_rearrangements rearranged, fun asks => asks.of_rearrangements back⟩

theorem requests_are_read_by_key_rearranged :
    decode? "\x7b\"command\":\"show vtp\",\"node\":null\x7d" =
        decode? " \x7b\"more\": [\x7b\"node\": \"SW\\ud800\"\x7d],\t
          \"\\u006eode\" : null,\r\n\"command\": \"show vtp\" \x7d" ∧
      decode? "\x7b\"command\":\"show vtp\",\"node\":null\x7d" = some ⟨"show vtp", none⟩ := by
  let units (s : String) : List TextUnit := s.toList.map .char
  let command : List TextUnit × Json := (units "command", .scalar (.string (units "show vtp")))
  let node : List TextUnit × Json := (units "node", .scalar .null)
  let escaped_node : List TextUnit × Json := (.code 0x6E :: units "ode", .scalar .null)
  let inner : Json := .object [(units "node", .scalar (.string (units "SW" ++ [.code 0xD800])))]
  let more : List TextUnit × Json := (units "more", .array [inner])
  have plain : LaidOut (tokensOf (.object [command, node])) _ :=
    Json.read?_eq_some_iff.mp
      (show Json.read? "\x7b\"command\":\"show vtp\",\"node\":null\x7d" = _ from rfl)
  have other : LaidOut (tokensOf (.object [more, escaped_node, command])) _ :=
    Json.read?_eq_some_iff.mp
      (show Json.read? " \x7b\"more\": [\x7b\"node\": \"SW\\ud800\"\x7d],\t
          \"\\u006eode\" : null,\r\n\"command\": \"show vtp\" \x7d" = _ from rfl)
  have swapped : Rearranged [command, node] [node, command] := .permuted (.swap ..)
  have respelled : Rearranged ([] ++ node :: [command]) ([] ++ escaped_node :: [command]) :=
    .respelled rfl
  have inserted :
      Rearranged ([] ++ [escaped_node, command]) ([] ++ more :: [escaped_node, command]) :=
    .inserted ⟨"more", rfl, by decide, by decide⟩
  have law := requests_are_read_by_key _ _ _ _ plain other
  have keyed : Json.Members.Keyed [command, node] := by
    rintro m (_ | ⟨_, _ | ⟨_, ⟨⟩⟩⟩)
    · exact ⟨"command", rfl⟩
    · exact ⟨"node", rfl⟩
  refine ⟨law.2 (.head swapped (.head respelled (.single inserted))), ?_⟩
  exact (law.1 _).mpr ⟨keyed, .once rfl, .once rfl⟩

end CommandRequest

end VlanTrunking
