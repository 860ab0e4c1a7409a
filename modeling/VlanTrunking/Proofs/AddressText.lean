import Mathlib.Data.List.DropRight
import VlanTrunking.Address.Socket

/-! Addresses as they are written, read back. Octets and groups are written without needless zeros
and read one by one; a double colon is written in one place only, so it is found there, and it
stands for just the zero groups that it left out. Colons tell the two families apart, so whatever
address is written is read as the same address, and a socket address shows which address and port it
has. -/
namespace VlanTrunking

namespace Ipv4

theorem readOctet_toDigits (octet : Octet) :
    readOctet (Nat.toDigits 10 octet.val) = some octet := by
  have trimmed : ¬((Nat.toDigits 10 octet.val).head? = some '0' ∧
      (Nat.toDigits 10 octet.val).length ≠ 1) := by
    rcases Text.toDigits_trimmed octet.val with other | single
    · exact fun needless => other needless.1
    · exact fun needless => needless.2 single
  simp only [readOctet, Text.readNat_toDigits, Option.bind_eq_bind, Option.bind_some]
  rw [dif_pos octet.isLt, if_neg trimmed]

theorem splitOn_write (ip : Ipv4) :
    ip.write.splitOn '.' = ip.octets.map fun octet => Nat.toDigits 10 octet.val := by
  refine List.splitOn_intercalate '.' ?_ (by simp [octets])
  rw [List.forall_mem_map]
  exact fun octet _ => Text.notMem_toDigits (by decide) octet.val

theorem read?_write (ip : Ipv4) : read? ip.write = some ip := by
  simp [read?, splitOn_write, octets, readOctet_toDigits]

section Characters

variable {c : Char}

theorem readOctet_of_mem (no_digit : c.isDigit = false) {piece : List Char} (listed : c ∈ piece) :
    readOctet piece = none := by
  have not_all : piece.all Char.isDigit = false :=
    List.all_eq_false.mpr ⟨c, listed, by simp [no_digit]⟩
  simp [readOctet, Text.readNat, not_all]

theorem mapM_readOctet_of_mem (no_digit : c.isDigit = false) (no_point : c ≠ '.')
    {pieces : List (List Char)} (listed : c ∈ ['.'].intercalate pieces) :
    pieces.mapM readOctet = none := by
  induction pieces with
  | nil => simp at listed
  | cons piece rest ih =>
    have parts : c ∈ piece ∨ c ∈ ['.'].intercalate rest := by
      cases rest with
      | nil => exact .inl (by simpa using listed)
      | cons => simpa [List.intercalate_cons_cons, no_point] using listed
    rw [List.mapM_cons]
    rcases parts with here | later
    · rw [readOctet_of_mem no_digit here]
      rfl
    · cases readOctet piece <;> simp [ih later]

theorem read?_of_mem (no_digit : c.isDigit = false) (no_point : c ≠ '.') {cs : List Char}
    (listed : c ∈ cs) : read? cs = none := by
  have pieces : ['.'].intercalate (cs.splitOn '.') = cs := List.intercalate_splitOn '.'
  rw [← pieces] at listed
  simp [read?, mapM_readOctet_of_mem no_digit no_point listed]

theorem notMem_write (no_digit : c.isDigit = false) (no_point : c ≠ '.') (ip : Ipv4) :
    c ∉ ip.write := by
  intro listed
  have unread := read?_of_mem no_digit no_point listed
  rw [read?_write] at unread
  cases unread

end Characters

end Ipv4

namespace Ipv6

theorem readGroup_toDigits (group : Hextet) :
    readGroup (Nat.toDigits 16 group.val) = some group := by
  have short : (Nat.toDigits 16 group.val).length ≤ 4 :=
    (Nat.length_toDigits_le_iff (by decide) (by decide)).mpr group.isLt
  have fits : ¬((Nat.toDigits 16 group.val).isEmpty = true ∨
      4 < (Nat.toDigits 16 group.val).length) := by
    simp [Nat.toDigits_ne_nil, short]
  simp only [readGroup, Text.readHexDigits_toDigits, Option.bind_eq_bind, Option.bind_some]
  rw [dif_pos group.isLt, if_neg fits]

theorem no_colon (group : Hextet) : ':' ∉ Nat.toDigits 16 group.val := fun listed =>
  absurd (Text.isSome_of_mem (Text.readHexDigits_toDigits group.val) listed) (by decide)

section Groups

variable {groups : List Hextet}

theorem splitOn_writeGroups (some_left : groups ≠ []) :
    (writeGroups groups).splitOn ':' = groups.map fun group => Nat.toDigits 16 group.val := by
  refine List.splitOn_intercalate ':' ?_ (by simpa using some_left)
  rw [List.forall_mem_map]
  exact fun group _ => no_colon group

theorem writeGroups_cons (group : Hextet) (some_left : groups ≠ []) :
    writeGroups (group :: groups) = Nat.toDigits 16 group.val ++ ':' :: writeGroups groups := by
  cases groups with
  | nil => exact absurd rfl some_left
  | cons => simp [writeGroups, List.intercalate_cons_cons]

theorem writeGroups_begins (group : Hextet) (groups : List Hextet) :
    ∃ c rest, c ≠ ':' ∧ writeGroups (group :: groups) = c :: rest := by
  obtain ⟨c, digits, begins⟩ :=
    List.exists_cons_of_ne_nil (Nat.toDigits_ne_nil (n := group.val) (b := 16))
  have other : c ≠ ':' := by
    rintro rfl
    exact no_colon group (by simp [begins])
  by_cases some_left : groups = []
  · exact ⟨c, digits, other, by simp [writeGroups, some_left, begins]⟩
  · exact ⟨c, digits ++ ':' :: writeGroups groups, other, by
      rw [writeGroups_cons group some_left, begins, List.cons_append]⟩

theorem writeGroups_ne_nil (some_left : groups ≠ []) : writeGroups groups ≠ [] := by
  obtain ⟨group, rest, rfl⟩ := List.exists_cons_of_ne_nil some_left
  obtain ⟨c, more, -, begins⟩ := writeGroups_begins group rest
  simp [begins]

theorem mapM_readGroup (groups : List Hextet) :
    (groups.map fun group => Nat.toDigits 16 group.val).mapM readGroup = some groups := by
  induction groups with
  | nil => rfl
  | cons group groups ih => simp [readGroup_toDigits, ih]

theorem readPieces_toDigits (groups : List Hextet) :
    readPieces (groups.map fun group => Nat.toDigits 16 group.val) = some groups := by
  induction groups with
  | nil => rfl
  | cons group groups ih =>
    cases groups with
    | nil => simp [readPieces, readLast, readGroup_toDigits]
    | cons next rest =>
      rw [List.map_cons] at ih ⊢
      simp [readPieces, readGroup_toDigits, ih]

theorem readHead_writeGroups (groups : List Hextet) :
    readHead (writeGroups groups) = some groups := by
  rcases eq_or_ne groups [] with rfl | some_left
  · rfl
  · rw [readHead, splitOn_writeGroups some_left, mapM_readGroup]
    simp [writeGroups_ne_nil some_left]

theorem readTail_writeGroups (groups : List Hextet) :
    readTail (writeGroups groups) = some groups := by
  rcases eq_or_ne groups [] with rfl | some_left
  · rfl
  · rw [readTail, splitOn_writeGroups some_left, readPieces_toDigits]
    simp [writeGroups_ne_nil some_left]

end Groups

section Cutting

theorem cutAtDoubleColon_append {piece : List Char} (plain : ':' ∉ piece) (rest : List Char) :
    cutAtDoubleColon (piece ++ rest) =
      (cutAtDoubleColon rest).map fun (left, right) => (piece ++ left, right) := by
  induction piece with
  | nil => simp
  | cons c piece ih =>
    rw [List.mem_cons, not_or] at plain
    rw [List.cons_append, cutAtDoubleColon, ih plain.2, Option.map_map]
    · rfl
    · rintro _ rfl
      exact absurd rfl plain.1

theorem cutAtDoubleColon_single {c : Char} (other : c ≠ ':') (rest : List Char) :
    cutAtDoubleColon (':' :: c :: rest) =
      (cutAtDoubleColon (c :: rest)).map fun (left, right) => (':' :: left, right) := by
  rw [cutAtDoubleColon]
  rintro _ - same
  exact other (List.cons.inj same).1

theorem cutAtDoubleColon_writeGroups (groups : List Hextet) (rest : List Char) :
    cutAtDoubleColon (writeGroups groups ++ rest) =
      (cutAtDoubleColon rest).map fun (left, right) => (writeGroups groups ++ left, right) := by
  induction groups with
  | nil => simp [writeGroups]
  | cons group groups ih =>
    cases groups with
    | nil => simp [writeGroups, cutAtDoubleColon_append (no_colon group)]
    | cons next groups =>
      obtain ⟨c, digits, other, begins⟩ := writeGroups_begins next groups
      rw [writeGroups_cons group (List.cons_ne_nil next groups), List.append_assoc,
        cutAtDoubleColon_append (no_colon group), List.cons_append]
      rw [begins] at ih ⊢
      rw [List.cons_append, cutAtDoubleColon_single other, ← List.cons_append, ih]
      simp [Function.comp_def]

end Cutting

section Runs

theorem replicate_zeroRun (groups : List Hextet) :
    List.replicate (zeroRun groups) 0 ++ groups.drop (zeroRun groups) = groups := by
  induction groups with
  | nil => rfl
  | cons group groups ih =>
    unfold zeroRun at ih ⊢
    by_cases zero : group = 0
    · simp [zero, List.replicate_succ, ih]
    · simp [zero]

theorem fill_longestRun (groups : List Hextet) :
    groups.take (longestRun groups).1 ++ List.replicate (longestRun groups).2 0 ++
      groups.drop ((longestRun groups).1 + (longestRun groups).2) = groups := by
  induction groups with
  | nil => rfl
  | cons group groups ih =>
    rw [longestRun]
    dsimp only
    split
    · simpa using replicate_zeroRun (group :: groups)
    · rw [Nat.add_right_comm]
      simpa using ih

end Runs

section Dotted

variable {ip : Ipv6} {dotted : Ipv4}

theorem groups_of_mapped (mapped : ip.mapped? = some dotted) :
    ip.groups = [0, 0, 0, 0, 0, 0xFFFF] ++ ofIpv4 dotted := by
  have join (group : Hextet) (high : group.val / 256 < 256) (low : group.val % 256 < 256) :
      joinOctets ⟨group.val / 256, high⟩ ⟨group.val % 256, low⟩ = group :=
    Fin.ext (Nat.div_add_mod ..)
  unfold mapped? at mapped
  split at mapped
  · next groups =>
    cases mapped
    simp [groups, ofIpv4, join]
  · cases mapped

theorem readLast_write (dotted : Ipv4) : readLast dotted.write = some (ofIpv4 dotted) := by
  have point : '.' ∈ dotted.write := by
    simp [Ipv4.write, Ipv4.octets, List.intercalate_cons_cons]
  have no_number : Text.readHexDigits dotted.write = none := by
    rw [Option.eq_none_iff_forall_ne_some]
    exact fun n read => absurd (Text.isSome_of_mem read point) (by decide)
  simp [readLast, readGroup, no_number, Ipv4.read?_write]

end Dotted

section Reading

variable {ip : Ipv6}

theorem ofGroups?_groups (ip : Ipv6) : ofGroups? ip.groups = some ip := dif_pos ip.length_groups

theorem read?_of_cut {text left right : List Char} {head tail : List Hextet}
    (cut : cutAtDoubleColon text = some (left, right)) (first : readHead left = some head)
    (last : readTail right = some tail) (short : head.length + tail.length ≤ 7) :
    read? text = ofGroups?
      (head ++ List.replicate (8 - (head.length + tail.length)) 0 ++ tail) := by
  simp [read?, cut, first, last, short]

theorem read?_mapped {dotted : Ipv4} (mapped : ip.mapped? = some dotted) :
    read? ("::ffff:".toList ++ dotted.write) = some ip := by
  have cut : cutAtDoubleColon ("::ffff:".toList ++ dotted.write) =
      some ([], "ffff:".toList ++ dotted.write) := rfl
  have pieces : ("ffff".toList ++ ':' :: dotted.write).splitOn ':' =
      ["ffff".toList, dotted.write] := by
    rw [List.splitOn_append_cons_self_of_not_mem (by decide),
      List.splitOn_eq_singleton (Ipv4.notMem_write (by decide) (by decide) dotted)]
  have group : readGroup "ffff".toList = some 0xFFFF := by decide
  have last : readTail ("ffff".toList ++ ':' :: dotted.write) =
      some (0xFFFF :: ofIpv4 dotted) := by
    rw [readTail, if_neg (by simp), pieces]
    simp only [readPieces, group, readLast_write]
    rfl
  rw [read?_of_cut cut rfl last (by simp [ofIpv4]), ← ip.ofGroups?_groups, groups_of_mapped mapped]
  rfl

theorem read?_writeGroups (ip : Ipv6) : read? (writeGroups ip.groups) = some ip := by
  have cut : cutAtDoubleColon (writeGroups ip.groups) = none := by
    have whole := cutAtDoubleColon_writeGroups ip.groups []
    rwa [List.append_nil] at whole
  simp only [read?, cut, readTail_writeGroups, Option.bind_eq_bind, Option.bind_some]
  exact ip.ofGroups?_groups

theorem read?_shortened {head tail : List Hextet} {length : Nat} (some_out : 1 ≤ length)
    (filled : head ++ List.replicate length 0 ++ tail = ip.groups) :
    read? (writeGroups head ++ [':', ':'] ++ writeGroups tail) = some ip := by
  have eight : head.length + length + tail.length = 8 := by
    rw [← ip.length_groups, ← filled]
    simp [Nat.add_assoc]
  have cut : cutAtDoubleColon (writeGroups head ++ [':', ':'] ++ writeGroups tail) =
      some (writeGroups head, writeGroups tail) := by
    rw [List.append_assoc, cutAtDoubleColon_writeGroups]
    simp [cutAtDoubleColon]
  have left_out : 8 - (head.length + tail.length) = length := by omega
  rw [read?_of_cut cut (readHead_writeGroups head) (readTail_writeGroups tail) (by omega), left_out,
    filled, ip.ofGroups?_groups]

theorem read?_write (ip : Ipv6) : read? ip.write = some ip := by
  unfold write
  split
  · next mapped => exact read?_mapped mapped
  · dsimp only
    split
    · exact ip.read?_writeGroups
    · next long => exact read?_shortened (by omega) (fill_longestRun ip.groups)

/-- A text of this family has a colon, for one piece stands for two groups at most. -/
theorem colon_of_read? {cs : List Char} (read : read? cs = some ip) : ':' ∈ cs := by
  by_contra plain
  have cut : cutAtDoubleColon cs = none := by
    have whole := cutAtDoubleColon_append plain []
    rwa [List.append_nil] at whole
  have few : ∀ groups, readTail cs = some groups → groups.length ≤ 2 := by
    intro groups tail
    unfold readTail at tail
    split at tail
    · cases tail
      decide
    · rw [List.splitOn_eq_singleton plain, readPieces, readLast] at tail
      split at tail
      · cases tail
        exact Nat.le_succ 1
      · obtain ⟨dotted, -, rfl⟩ := Option.map_eq_some_iff.mp tail
        exact Nat.le_refl 2
  simp only [read?, cut, Option.bind_eq_bind, Option.bind_eq_some_iff] at read
  obtain ⟨groups, tail, whole⟩ := read
  have eight : ¬groups.length = 8 := by
    have at_most_two := few groups tail
    omega
  rw [ofGroups?, dif_neg eight] at whole
  cases whole

end Reading

end Ipv6

namespace IpAddress

theorem read?_write (ip : IpAddress) : read? ip.write = some ip := by
  cases ip with
  | v4 ip => simp [read?, write, Ipv4.read?_write]
  | v6 ip =>
    have colon := Ipv6.colon_of_read? ip.read?_write
    simp [read?, write, Ipv4.read?_of_mem (by decide) (by decide) colon, Ipv6.read?_write]

end IpAddress

namespace SocketAddress

/-- The address in the text of a socket address: what comes before the last colon, without
brackets. -/
def hostText (text : String) : String :=
  match (text.toList.rdropWhile (· ≠ ':')).dropLast with
  | '[' :: host => String.ofList host.dropLast
  | host => String.ofList host

theorem rdropWhile_port {port : List Char} (plain : ':' ∉ port) (host : List Char) :
    (host ++ ':' :: port).rdropWhile (· ≠ ':') = host ++ [':'] := by
  have passed : ∀ c ∈ port.reverse, (decide (c ≠ ':')) = true := by
    intro c listed
    rw [decide_eq_true_eq]
    rintro rfl
    exact plain (List.mem_reverse.mp listed)
  rw [List.rdropWhile, List.reverse_append, List.reverse_cons, List.append_assoc,
    List.dropWhile_append_of_pos passed]
  simp

theorem hostText_write (a : SocketAddress) : hostText a.write = a.ip.write := by
  have port : ':' ∉ Nat.toDigits 10 a.port.val := Text.notMem_toDigits (by decide) _
  unfold hostText
  cases family : a.ip with
  | v4 ip =>
    have text : a.write.toList = ip.write ++ ':' :: Nat.toDigits 10 a.port.val := by
      simp [write, family, IpAddress.write]
    rw [text, rdropWhile_port port, List.dropLast_concat]
    split
    · next bracket =>
      have listed : '[' ∈ ip.write := by simp [bracket]
      exact absurd listed (Ipv4.notMem_write (by decide) (by decide) ip)
    · rfl
  | v6 ip =>
    have text : a.write.toList = '[' :: ip.write ++ [']'] ++ ':' :: Nat.toDigits 10 a.port.val := by
      simp [write, family, IpAddress.write]
    rw [text, rdropWhile_port port, List.dropLast_concat]
    simp [IpAddress.write]

end SocketAddress

end VlanTrunking
