import VlanTrunking.Command.Error
import VlanTrunking.Vlan.IdList

/-! Configuration commands and their text form. Keywords are recognised in any letter case,
and so are the words that name a mode or a private-VLAN role. Domains, passwords and VLAN
names keep the case in which they are typed; where they have several words these are joined
by single spaces. The ids of a VLAN list may be spread over several words, which are read as
one list without the blanks. -/
namespace VlanTrunking

inductive ConfigCommand where
  | setMode (mode : Mode)
  | setDomain (name : String)
  | setPassword (password : String)
  | enablePruning
  | disablePruning
  | defineVlans (ids : List VlanId) (name : Option String)
  | removeVlans (ids : List VlanId)
  | setPrivateVlan (id : VlanId) (kind : VlanKind)
  deriving DecidableEq, Repr

def Mode.read (token : String) : Except CommandError Mode :=
  match Mode.ofName? token with
  | some mode => .ok mode
  | none => .error (.invalidMode token)

def IdList.read (text : String) : Except CommandError (List VlanId) :=
  match IdList.read? text with
  | some ids => .ok ids
  | none => .error (.invalidVlanList text)

namespace ConfigCommand

def ofVtpWords : List String → Except CommandError ConfigCommand
  | [] => .error .incompleteCommand
  | sub :: args =>
    match Text.lower sub, args with
    | "mode", [] => .error .incompleteCommand
    | "mode", token :: _ => setMode <$> Mode.read (Text.lower token)
    | "domain", [] => .error .incompleteCommand
    | "domain", name :: _ => .ok (setDomain name)
    | "password", [] => .error .incompleteCommand
    | "password", args => .ok (setPassword (Text.unwords args))
    | "pruning", _ => .ok enablePruning
    | _, _ => .error .unsupportedCommand

def isNameKeyword (word : String) : Bool := Text.lower word = "name"

/-- What follows the word vlan: the list up to the first word name, then the name. A name keyword
without a name, or without a list before it, leaves the command incomplete. -/
def ofVlanWords : List String → Except CommandError ConfigCommand
  | [] => .error .incompleteCommand
  | first :: rest =>
    let args := first :: rest
    if Text.lower first = "dot1q" then .error .unsupportedCommand
    else
      let list := args.takeWhile (!isNameKeyword ·)
      match args.dropWhile (!isNameKeyword ·) with
      | [] => do return defineVlans (← IdList.read (String.join list)) none
      | _ :: words =>
        if words.isEmpty || list.isEmpty then .error .incompleteCommand
        else do return defineVlans (← IdList.read (String.join list)) (some (Text.unwords words))

def ofNoVlanWords : List String → Except CommandError ConfigCommand
  | [] => .error .incompleteCommand
  | args => removeVlans <$> IdList.read (String.join args)

/-- What follows the word private-vlan: a role and a list that means exactly one id. -/
def ofPrivateVlanWords : List String → Except CommandError ConfigCommand
  | [] => .error .incompleteCommand
  | role :: args =>
    match VlanKind.privateRoles.find? fun kind => kind.name = Text.lower role with
    | none => .error (.invalidPrivateVlanType (Text.lower role))
    | some kind =>
      if args.isEmpty then .error .incompleteCommand
      else
        let list := String.join args
        match IdList.read list with
        | .ok [id] => .ok (setPrivateVlan id kind)
        | _ => .error (.invalidVlanList list)

def ofWords : List String → Except CommandError ConfigCommand
  | [] => .error .notVtpCommand
  | first :: args =>
    match Text.lower first with
    | "vtp" => ofVtpWords args
    | "vlan" => ofVlanWords args
    | "private-vlan" => ofPrivateVlanWords args
    | "no" =>
      match args.map Text.lower with
      | "vlan" :: _ => ofNoVlanWords args.tail
      | "vtp" :: "pruning" :: _ => .ok disablePruning
      | _ => .error .notVtpCommand
    | _ => .error .notVtpCommand

def read (line : String) : Except CommandError ConfigCommand := ofWords (Text.words line)

section Keywords

variable {ws : List String} {first second third : String}

theorem ofWords_vtp (vtp : Text.lower first = "vtp") : ofWords (first :: ws) = ofVtpWords ws := by
  simp only [ofWords, vtp]

theorem ofWords_vlan (vlan : Text.lower first = "vlan") :
    ofWords (first :: ws) = ofVlanWords ws := by
  simp only [ofWords, vlan]

theorem ofWords_privateVlan (keyword : Text.lower first = "private-vlan") :
    ofWords (first :: ws) = ofPrivateVlanWords ws := by
  simp only [ofWords, keyword]

theorem ofWords_noVlan (no : Text.lower first = "no") (vlan : Text.lower second = "vlan") :
    ofWords (first :: second :: ws) = ofNoVlanWords ws := by
  simp only [ofWords, no, List.map_cons, vlan, List.tail_cons]

theorem ofWords_noPruning (no : Text.lower first = "no")
    (vtp : Text.lower second = "vtp") (pruning : Text.lower third = "pruning") :
    ofWords (first :: second :: third :: ws) = .ok disablePruning := by
  simp only [ofWords, no, List.map_cons, vtp, pruning]

theorem ofVtpWords_mode {mode : Mode} (sub : Text.lower first = "mode")
    (name : Text.lower second = mode.name) :
    ofVtpWords (first :: second :: ws) = .ok (setMode mode) := by
  have read : Mode.read mode.name = .ok mode := by rw [Mode.read, mode.ofName?_name]
  unfold ofVtpWords
  simp only [sub, name, read, accepted_map, Except.ok.injEq, exists_eq_left']

theorem ofVtpWords_domain (sub : Text.lower first = "domain") :
    ofVtpWords (first :: second :: ws) = .ok (setDomain second) := by
  unfold ofVtpWords
  simp only [sub]

theorem ofVtpWords_password (sub : Text.lower first = "password") (some_left : ws ≠ []) :
    ofVtpWords (first :: ws) = .ok (setPassword (Text.unwords ws)) := by
  cases ws with
  | nil => exact absurd rfl some_left
  | cons word ws =>
    unfold ofVtpWords
    simp only [sub]

theorem ofVtpWords_pruning (sub : Text.lower first = "pruning") :
    ofVtpWords (first :: ws) = .ok enablePruning := by
  unfold ofVtpWords
  simp only [sub]

theorem find?_privateRoles {kind : VlanKind} (private_role : kind ≠ .normal) :
    VlanKind.privateRoles.find? (fun k => k.name = kind.name) = some kind := by
  cases kind with
  | normal => exact absurd rfl private_role
  | primary | community | isolated => decide

theorem ofPrivateVlanWords_of_one {kind : VlanKind} {id : VlanId} (private_role : kind ≠ .normal)
    (role : Text.lower first = kind.name) (some_left : ws ≠ [])
    (one : IdList.read (String.join ws) = .ok [id]) :
    ofPrivateVlanWords (first :: ws) = .ok (setPrivateVlan id kind) := by
  simp [ofPrivateVlanWords, role, find?_privateRoles private_role, some_left, one]

end Keywords

end ConfigCommand

end VlanTrunking
