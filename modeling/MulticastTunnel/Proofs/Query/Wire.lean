import MulticastTunnel.Proofs.Ip.Control
import MulticastTunnel.Query.Packet

/-!
# Queries as they are read

A query that is read from a packet asks about addresses of the packet's family only.

* `Query.sameFamily_of_decode` : the sources of a query are of the family of its group.
-/

namespace MulticastTunnel

namespace Query

variable {q : Query}

/-- Group and sources are IPv4 addresses, or none of them is. -/
def IsAbout (q : Query) (v4 : Bool) : Prop :=
  (∀ group ∈ q.group, group.isV4 = v4) ∧ ∀ s ∈ q.sources, s.isV4 = v4

theorem IsAbout.withGroup {v4 : Bool} {group : Option Address} (delay : Duration)
    (h : ∀ g ∈ group, g.isV4 = v4) : IsAbout { general delay with group } v4 :=
  ⟨h, by simp [general]⟩

theorem Igmp.isV4_of_specified {bits : BitVec 32} : ∀ g ∈ specified bits, g.isV4 = true := by
  unfold specified
  split <;> simp [Address.isV4]

theorem Igmp.isAbout_of_decode {message : Bytes} (h : decode message = .ok q) : q.IsAbout true := by
  obtain ⟨_, h⟩ := Reader.parse_eq_ok_iff.1 h
  simp only [Reader.bind_eq_ok_iff, Reader.ite_reject_eq_ok_iff] at h
  obtain ⟨_, _, -, -, _, _, -, -, _, _, -, _, _, -, bits, _, -, h⟩ := h
  split at h
  · obtain ⟨rfl, -⟩ := Reader.pure_eq_ok_iff.1 h
    exact .withGroup _ isV4_of_specified
  · simp only [tailReader, Reader.bind_eq_ok_iff, Reader.pure_eq_ok_iff] at h
    obtain ⟨_, _, -, _, _, -, _, _, -, _, _, -, _, _, -, _, _, -, rfl, -⟩ := h
    exact ⟨isV4_of_specified, by simp [Address.isV4]⟩

theorem Mld.isV4_of_specified {bits : BitVec 128} : ∀ g ∈ specified bits, g.isV4 = false := by
  unfold specified
  split <;> simp [Address.isV4]

theorem Mld.isAbout_of_decode {source destination : BitVec 128} {message : Bytes}
    (h : decode source destination message = .ok q) : q.IsAbout false := by
  obtain ⟨_, h⟩ := Reader.parse_eq_ok_iff.1 h
  simp only [Reader.bind_eq_ok_iff, Reader.ite_reject_eq_ok_iff] at h
  obtain ⟨_, _, -, -, _, _, -, -, _, _, -, _, _, -, _, _, -, bits, _, -, h⟩ := h
  split at h
  · obtain ⟨rfl, -⟩ := Reader.pure_eq_ok_iff.1 h
    exact .withGroup _ isV4_of_specified
  · simp only [tailReader, Reader.bind_eq_ok_iff, Reader.pure_eq_ok_iff] at h
    obtain ⟨_, _, -, _, _, -, _, _, -, _, _, -, _, _, -, _, _, -, rfl, -⟩ := h
    exact ⟨isV4_of_specified, by simp [Address.isV4]⟩

/-- **A query that is read from a packet is about one family**: its sources are of the family of
its group. -/
theorem sameFamily_of_decode {packet : Bytes} (h : decode packet = .ok q) :
    ∀ group ∈ q.group, ∀ s ∈ q.sources, s.isV4 = group.isV4 := by
  obtain ⟨v4, about⟩ : ∃ v4, q.IsAbout v4 := by
    rcases ControlPacket.exists_message_of_read h with ⟨_, igmp⟩ | ⟨_, _, _, mld⟩
    · exact ⟨true, Igmp.isAbout_of_decode igmp⟩
    · exact ⟨false, Mld.isAbout_of_decode mld⟩
  exact fun group hgroup s hs => (about.2 s hs).trans (about.1 group hgroup).symm

end Query

end MulticastTunnel
