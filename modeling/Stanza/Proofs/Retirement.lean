import Stanza.Proofs.Settings
import Stanza.Retirement

/-! # Documents without retired settings

There are no notices exactly if no section has a retired setting and no section is retired itself.
-/
namespace Stanza.Retirement

/-- No retired setting in any section, and no retired section. -/
structure Quiet (document : Settings) : Prop where
  commandProcessing : ∀ key ∈ commandProcessingKeys, sets (document.get "command-processing") key = false
  databases : ∀ name contents, (.text name, contents) ∈ document →
    Database.isHeading name = true ∨ name = "read-database" → ∀ key ∈ databaseKeys, sets contents key = false
  globals : ∀ key ∈ globalKeys, sets (document.get "global") key = false
  blocks : ∀ block ∈ blocks, document.has block.1 = false

theorem noticesIn_eq_nil_iff {heading : String} {contents : Value} {keys : List String} :
    noticesIn heading contents keys = [] ↔ ∀ key ∈ keys, sets contents key = false := by
  simp [noticesIn, List.filter_eq_nil_iff]

theorem databaseNotices_eq_nil_iff {document : Settings} : databaseNotices document = [] ↔
    ∀ name contents, (.text name, contents) ∈ document → Database.isHeading name = true ∨ name = "read-database" →
      ∀ key ∈ databaseKeys, sets contents key = false := by
  simp only [databaseNotices, List.flatMap_eq_nil_iff]
  constructor
  · intro h name contents hm hn
    have hnil := h _ hm
    dsimp only at hnil
    rw [if_pos (by simpa using hn)] at hnil
    exact noticesIn_eq_nil_iff.mp hnil
  · rintro h ⟨key, contents⟩ hm
    cases key with
    | text name =>
      dsimp only
      split
      · next hn => exact noticesIn_eq_nil_iff.mpr (h name contents hm (by simpa using hn))
      · rfl
    | _ => rfl

theorem notices_eq_nil_iff {document : Settings} : notices document = [] ↔ Quiet document := by
  simp only [notices, List.append_eq_nil_iff, noticesIn_eq_nil_iff, databaseNotices_eq_nil_iff, List.map_eq_nil_iff,
    List.filter_eq_nil_iff, Bool.not_eq_true]
  exact ⟨fun ⟨⟨⟨h1, h2⟩, h3⟩, h4⟩ => ⟨h1, h2, h3, h4⟩,
    fun h => ⟨⟨⟨h.commandProcessing, h.databases⟩, h.globals⟩, h.blocks⟩⟩

end Stanza.Retirement
