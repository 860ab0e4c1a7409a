import VlanTrunking.Proofs.AddressText
import VlanTrunking.Settings.Basic

/-! The address that a valid configuration binds, as its socket address shows it. The shown text is
accepted in place of the text that was given and means the same configuration, whose socket address
shows this text again; and socket addresses show the same only where the same is bound. -/
namespace VlanTrunking

theorem SocketAddress.write_eq_iff {a b : SocketAddress} :
    a.write = b.write ↔ a.ip = b.ip ∧ a.port = b.port := by
  constructor
  · intro same
    have ip : a.ip = b.ip := by
      have host := congrArg hostText same
      rw [hostText_write, hostText_write] at host
      have read := a.ip.read?_write
      rw [host, b.ip.read?_write] at read
      exact (Option.some.inj read).symm
    refine ⟨ip, ?_⟩
    unfold write at same
    rw [ip] at same
    have digits : a.port.val.repr = b.port.val.repr := by
      cases family : b.ip <;> simpa [family] using same
    exact Fin.ext (Text.repr_injective digits)
  · rintro ⟨ip, port⟩
    rw [write, write, ip, port]

namespace Settings

variable {s : Settings} {c : ServerConfig}

/-- Settings with the address in the form that is shown for it, as far as they are valid. -/
def canonical (s : Settings) : Settings :=
  match s.validate with
  | .ok c => { s with bindAddress := SocketAddress.hostText c.bind.write }
  | .error _ => s

theorem canonical_of_valid (valid : s.validate = .ok c) :
    s.canonical = { s with bindAddress := SocketAddress.hostText c.bind.write } := by
  rw [canonical, valid]

theorem validate_canonical (valid : s.validate = .ok c) : s.canonical.validate = .ok c := by
  rw [canonical_of_valid valid, SocketAddress.hostText_write]
  rw [validate_eq_ok_iff] at valid ⊢
  obtain ⟨ip, -, absolute, rfl⟩ := valid
  exact ⟨ip, ip.read?_write, absolute, rfl⟩

theorem canonical_canonical (s : Settings) : s.canonical.canonical = s.canonical := by
  cases valid : s.validate with
  | error e =>
    have same : s.canonical = s := by rw [canonical, valid]
    rw [same, same]
  | ok c => rw [canonical_of_valid (validate_canonical valid), canonical_of_valid valid]

end Settings

/-- The address of valid settings may be replaced by the one that their socket shows. The settings
are valid again and mean the same, and the shown form is not changed any more. Two sockets show the
same only if they have the same address and the same port. -/
theorem shown_address_is_canonical {s s' : Settings} {c c' : ServerConfig}
    (valid : s.validate = .ok c) (valid' : s'.validate = .ok c') :
    let shown := SocketAddress.hostText c.bind.write
    { s with bindAddress := shown }.validate = .ok c ∧
      s.canonical = { s with bindAddress := shown } ∧ s.canonical.canonical = s.canonical ∧
      (c.bind.write = c'.bind.write ↔ c.bind.ip = c'.bind.ip ∧ s.port = s'.port) := by
  intro shown
  have replaced := Settings.canonical_of_valid valid
  have port : c.bind.port = s.port := by
    obtain ⟨ip, -, -, rfl⟩ := Settings.validate_eq_ok_iff.mp valid
    rfl
  have port' : c'.bind.port = s'.port := by
    obtain ⟨ip, -, -, rfl⟩ := Settings.validate_eq_ok_iff.mp valid'
    rfl
  refine ⟨replaced ▸ Settings.validate_canonical valid, replaced, s.canonical_canonical, ?_⟩
  rw [SocketAddress.write_eq_iff, port, port']

theorem shown_address_is_canonical_spellings :
    let s : Settings := { bindAddress := "2001:0DB8:0:0:1::192.0.2.33" }
    let s' : Settings := { bindAddress := "2001:db8::1:0:c000:221" }
    ∃ c, s.validate = .ok c ∧ s'.validate = .ok c ∧
      SocketAddress.hostText c.bind.write = s'.bindAddress ∧
      { s with bindAddress := s'.bindAddress }.validate = .ok c ∧ s'.canonical = s' := by
  intro s s'
  let ip : Ipv6 := ⟨[0x2001, 0xDB8, 0, 0, 1, 0, 0xC000, 0x221], rfl⟩
  let c : ServerConfig := ⟨⟨.v6 ip, defaultPort⟩, "/ws", {}, "info"⟩
  have valid : s.validate = .ok c := by decide +kernel
  have valid' : s'.validate = .ok c := by decide +kernel
  have shown : SocketAddress.hostText c.bind.write = s'.bindAddress := by decide +kernel
  obtain ⟨replaced, -⟩ := shown_address_is_canonical valid valid'
  obtain ⟨-, fixed, -⟩ := shown_address_is_canonical valid' valid
  rw [shown] at replaced fixed
  exact ⟨c, valid, valid', shown, replaced, fixed⟩

end VlanTrunking
