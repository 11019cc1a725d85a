import Stanza.Proofs.Schema.Convert
import Stanza.Schema.Catalogue

/-! # The shipped specifications

What every specification of the catalogue has in common: the two sides of a section agree on each field, and
the defaults are short enough to be written wherever the host is.
-/
namespace Stanza

namespace Schema

def shipped (host : Host) : List SectionSpec := [database, writeDatabase, puppetdb, developer, commandProcessing host]

/-- Neither side names a field twice, and what a user may write is optional and becomes a field of its kind. -/
structure Coherent (spec : SectionSpec) : Prop where
  nodup_incoming : (spec.incoming.fields.map Incoming.name).Nodup
  nodup_outgoing : (spec.outgoing.fields.map Outgoing.name).Nodup
  paired : (spec.incoming.fields.all fun field =>
    !field.required && (spec.outgoing.get? field.name).any (agrees field)) = true

variable {spec : SectionSpec} {field : Incoming}

theorem Coherent.not_required (hc : Coherent spec) (hf : field ∈ spec.incoming.fields) : field.required = false := by
  have h := List.all_eq_true.mp hc.paired field hf
  simpa using (Bool.and_eq_true_iff.mp h).1

theorem Coherent.exists_agrees (hc : Coherent spec) (hf : field ∈ spec.incoming.fields) :
    ∃ out, spec.outgoing.get? field.name = some out ∧ agrees field out = true := by
  have h := (Bool.and_eq_true_iff.mp (List.all_eq_true.mp hc.paired field hf)).2
  cases hg : spec.outgoing.get? field.name with
  | none => rw [hg] at h; cases h
  | some out => exact ⟨out, rfl, by simpa [hg] using h⟩

theorem coherent_database : Coherent database := ⟨by decide, by decide, by decide⟩

theorem coherent_writeDatabase : Coherent writeDatabase := ⟨by decide, by decide, by decide⟩

theorem coherent_puppetdb : Coherent puppetdb := ⟨by decide, by decide, by decide⟩

theorem coherent_developer : Coherent developer := ⟨by decide, by decide, by decide⟩

/-- The host has a part in the defaults only. -/
theorem coherent_commandProcessing (host : Host) : Coherent (commandProcessing host) := by
  have h : Coherent (commandProcessing ⟨1, 0⟩) := ⟨by decide, by decide, by decide⟩
  exact ⟨h.nodup_incoming, h.nodup_outgoing, h.paired⟩

theorem coherent_of_mem_shipped {host : Host} (h : spec ∈ shipped host) : Coherent spec := by
  simp only [shipped, List.mem_cons, List.not_mem_nil, or_false] at h
  rcases h with rfl | rfl | rfl | rfl | rfl
  · exact coherent_database
  · exact coherent_writeDatabase
  · exact coherent_puppetdb
  · exact coherent_developer
  · exact coherent_commandProcessing host

/-! ## Lengths of time -/

/-- Lengths of time in whole minutes or days are not negative. -/
def Forward (spec : SectionSpec) : Prop :=
  ∀ field ∈ spec.outgoing.fields, field.kind = .minutes ∨ field.kind = .days → field.minimum = some 0

theorem forward_database : Forward database := by unfold Forward; decide

theorem forward_writeDatabase : Forward writeDatabase := by unfold Forward; decide

theorem forward_puppetdb : Forward puppetdb := by unfold Forward; decide

theorem forward_developer : Forward developer := by unfold Forward; decide

/-- The host has no part in the kinds of the fields. -/
theorem forward_commandProcessing (host : Host) : Forward (commandProcessing host) := by
  have h : Forward (commandProcessing ⟨1, 0⟩) := by unfold Forward; decide
  exact h

/-! ## Required settings -/

def Supplied (spec : SectionSpec) : Prop :=
  (requiredNames spec.outgoing).all (fun name =>
    spec.incoming.fields.any fun field => field.name == name && !field.default.value.isNull) = true

theorem Supplied.exists_default (h : Supplied spec) {name : String} (hn : name ∈ requiredNames spec.outgoing) :
    ∃ field ∈ spec.incoming.fields, field.name = name ∧ field.default.value.isNull = false := by
  obtain ⟨field, hf, hfield⟩ := List.any_eq_true.mp (List.all_eq_true.mp h name hn)
  obtain ⟨hname, hdefault⟩ := Bool.and_eq_true_iff.mp hfield
  exact ⟨field, hf, eq_of_beq hname, by simpa using hdefault⟩

theorem supplied_of_mem_shipped {host : Host} (h : spec ∈ shipped host) : Supplied spec := by
  simp only [shipped, List.mem_cons, List.not_mem_nil, or_false] at h
  rcases h with rfl | rfl | rfl | rfl | rfl
  · unfold Supplied; decide
  · unfold Supplied; decide
  · unfold Supplied; decide
  · unfold Supplied; decide
  · have h : Supplied (commandProcessing ⟨1, 0⟩) := by unfold Supplied; decide
    exact h

/-! ## Defaults that can be written -/

theorem writable_half {host : Host} (h : Text.Writable host.cpus) : Text.Writable host.half := by
  rw [Text.writable_iff] at *
  have hl : (1 : Nat) < 10 ^ Text.digitLimit := Nat.one_lt_pow (by decide) (by decide)
  have hd : (Int.fdiv host.cpus 2).natAbs ≤ max host.cpus.natAbs 1 := by
    rw [Int.fdiv_eq_ediv_of_nonneg _ (by decide)]
    omega
  simp only [Host.half]
  omega

theorem writable_commandSize {host : Host} (h : Text.Writable host.memory) : Text.Writable host.commandSize := by
  rw [Text.writable_iff] at *
  have hl : (1 : Nat) < 10 ^ Text.digitLimit := Nat.one_lt_pow (by decide) (by decide)
  have hd : (Int.fdiv host.memory 205).natAbs ≤ max host.memory.natAbs 1 := by
    rw [Int.fdiv_eq_ediv_of_nonneg _ (by decide)]
    omega
  rw [Host.commandSize]
  omega

theorem writable_writes {host : Host} (h : Text.Writable host.cpus) : Text.Writable host.writes := by
  rw [Host.writes]
  rcases Int.le_total host.half 4 with hle | hle
  · rw [Int.min_eq_left hle]
    exact writable_half h
  · rw [Int.min_eq_right hle]
    decide

theorem writable_default {host : Host} (hcpus : Text.Writable host.cpus) (hmemory : Text.Writable host.memory)
    (h : spec ∈ shipped host) : ∀ field ∈ spec.incoming.fields, field.default.value.Writable := by
  simp only [shipped, List.mem_cons, List.not_mem_nil, or_false] at h
  rcases h with rfl | rfl | rfl | rfl | rfl
  · decide
  · decide
  · decide
  · decide
  · simp only [commandProcessing, List.forall_mem_cons, List.not_mem_nil, false_imp_iff, implies_true, and_true]
    exact ⟨writable_half hcpus, writable_commandSize hmemory, trivial, writable_writes hcpus, by decide,
      trivial, trivial, trivial⟩

end Schema

end Stanza
