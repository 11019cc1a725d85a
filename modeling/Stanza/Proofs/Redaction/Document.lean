import Stanza.Proofs.Redaction.Database

/-! # Documents without their secrets

Secrets are hidden directly in the sections that the service knows and at any depth in the others. Which sections there
are, how they are grouped and what the log says about them is not changed by that.
-/
namespace Stanza.Redaction

open Section

/-- Sections that differ in secrets: in settings of their own, or at any depth if they are not looked into. -/
inductive AlikeSection : Value × Value → Value × Value → Prop
  | same (e : Value × Value) : AlikeSection e e
  | settings (key : Value) {es fs : Settings} (h : List.Forall₂ AlikeSetting es fs) :
    AlikeSection (key, .map es) (key, .map fs)
  | extra (key : Value) {v w : Value} (hk : Config.isExtra (key, v) = true) (h : Alike v w) :
    AlikeSection (key, v) (key, w)

def hideContents (key contents : Value) : Value :=
  if Config.isExtra (key, contents) then hide contents else concealContents contents

def hideDocument (document : Settings) : Settings := Settings.mapValues hideContents document

theorem isExtra_congr (key v w : Value) : Config.isExtra (key, v) = Config.isExtra (key, w) := by
  cases key <;> rfl

theorem hideContents_of_not_extra {key : Value} (h : Config.isExtra (key, .null) = false) (contents : Value) :
    hideContents key contents = concealContents contents := by
  rw [hideContents, isExtra_congr key contents .null, h]
  rfl

theorem byText_hideContents : Settings.ByText hideContents := by
  have hplain : ∀ k : Value, k.isText = false → hideContents k = concealContents := by
    intro k hk
    funext v
    refine hideContents_of_not_extra ?_ v
    cases k with
    | text s => cases hk
    | _ => rfl
  intro k l hk hl
  rw [hplain k hk, hplain l hl]

theorem hideDocument_eq_of_alike {document other : Document} (h : List.Forall₂ AlikeSection document other) :
    hideDocument document = hideDocument other := by
  induction h with
  | nil => rfl
  | cons he _ ih =>
    refine congrArg₂ List.cons ?_ ih
    cases he with
    | same => rfl
    | @settings key es fs hs =>
      have hc := conceal_eq_of_alike hs
      refine congrArg (key, ·) ?_
      rw [hideContents, hideContents, isExtra_congr key (.map es) (.map fs), concealContents, concealContents, hc, hide,
        ← hideEntries_conceal, hc, hideEntries_conceal, ← hide]
    | @extra key v w hk hv =>
      have hw : Config.isExtra (key, w) = true := (isExtra_congr key w v).trans hk
      refine congrArg (key, ·) ?_
      change hideContents key v = hideContents key w
      rw [hideContents, hideContents, if_pos hk, if_pos hw, hide_eq_of_alike v w hv]

/-! ## Trees -/

def hideEntry (key : Value) : Entry → Entry
  | .plain value => .plain (hideContents key value)
  | .grouped s => .grouped (concealSection s)

def hideTree (t : Section.Tree) : Section.Tree := t.map fun e => (e.1, hideEntry e.1 e.2)

theorem hideEntry_of_same {k l : Value} (h : k.same l = true) (entry : Entry) :
    hideEntry k entry = hideEntry l entry := by
  cases entry with
  | plain value => rw [hideEntry, hideEntry, byText_hideContents.eq_of_same h]
  | grouped s => rfl

theorem insert_hideTree (t : Section.Tree) (key : Value) (entry : Entry) :
    (hideTree t).insert key (hideEntry key entry) = hideTree (t.insert key entry) := by
  induction t with
  | nil => rfl
  | cons e t ih =>
    have hcons : ∀ (e : Value × Entry) (t : Section.Tree), hideTree (e :: t) = (e.1, hideEntry e.1 e.2) :: hideTree t :=
      fun _ _ => rfl
    rw [hcons, Section.Tree.insert_cons, Section.Tree.insert_cons]
    split
    · next h =>
      rw [← hideEntry_of_same h entry]
      rfl
    · rw [ih, hcons]

theorem find?_hideTree (t : Section.Tree) (name : String) :
    (hideTree t).find? (.text name) = (t.find? (.text name)).map (hideEntry (.text name)) := by
  induction t with
  | nil => rfl
  | cons e t ih =>
    have hcons : hideTree (e :: t) = (e.1, hideEntry e.1 e.2) :: hideTree t := rfl
    rw [hcons, Section.Tree.find?_cons, Section.Tree.find?_cons, ih]
    split
    · next h => rw [Option.map_some, hideEntry_of_same h]
    · rfl

theorem node_hideTree (t : Section.Tree) (name : String) : (hideTree t).node name = concealSection (t.node name) := by
  rw [Section.Tree.node, find?_hideTree, Section.Tree.node]
  cases t.find? (.text name) with
  | none => rfl
  | some entry => cases entry <;> rfl

theorem plainAt_hideTree (t : Section.Tree) {name : String} (h : Config.isExtra (.text name, .null) = false) :
    Database.plainAt (hideTree t) name = concealContents (Database.plainAt t name) := by
  rw [Database.plainAt, find?_hideTree, Database.plainAt]
  cases t.find? (.text name) with
  | none => rfl
  | some entry =>
    cases entry with
    | plain value => exact hideContents_of_not_extra h value
    | grouped s => rfl

theorem strangerWarning_hideEntry (e : Value × Entry) :
    Database.strangerWarning? (e.1, hideEntry e.1 e.2) = Database.strangerWarning? e := by
  rcases e with ⟨key, entry⟩
  cases entry with
  | plain value => cases key <;> rfl
  | grouped s => cases key <;> rfl

theorem strangerWarnings_hideTree (t : Section.Tree) :
    (hideTree t).filterMap Database.strangerWarning? = t.filterMap Database.strangerWarning? := by
  rw [hideTree, List.filterMap_map]
  exact List.filterMap_congr fun e _ => strangerWarning_hideEntry e

/-! ## Grouping -/

def hideGrouping (g : Grouping) : Grouping := { g with tree := hideTree g.tree }

theorem settingsOf_concealContents (key : String) (contents : Value) :
    settingsOf key (concealContents contents) = conceal <$> settingsOf key contents := by
  cases contents <;> rfl

theorem hasSubsection_concealSection (s : Section) (name : String) :
    (concealSection s).hasSubsection name = s.hasSubsection name := by
  rw [hasSubsection, concealSection, List.any_map, hasSubsection]
  rfl

theorem withSubsection_hide (g : Grouping) (name sub : String) (settings : Settings) :
    (hideGrouping g).withSubsection name sub (conceal settings)
      = hideGrouping (g.withSubsection name sub settings) := by
  simp only [Grouping.withSubsection, hideGrouping, node_hideTree, ← insert_hideTree, hideEntry, concealSection,
    List.map_append, List.map_cons, List.map_nil]

theorem withSettings_hide (g : Grouping) (name : String) (settings : Settings) :
    (hideGrouping g).withSettings name (conceal settings) = hideGrouping (g.withSettings name settings) := by
  simp only [Grouping.withSettings, hideGrouping, node_hideTree, ← insert_hideTree, hideEntry, concealSection]

theorem addSection_hide (g : Grouping) (key : String) (contents : Value) :
    (hideGrouping g).addSection key (concealContents contents) = hideGrouping <$> g.addSection key contents := by
  simp only [Grouping.addSection, settingsOf_concealContents, bind_map_left, map_bind]
  refine congrArg _ (funext fun header => congrArg _ (funext fun settings => ?_))
  have htree : (hideGrouping g).tree = hideTree g.tree := rfl
  have hseen : (hideGrouping g).seen = g.seen := rfl
  cases header.subsection with
  | some sub =>
    simp only [htree, node_hideTree, hasSubsection_concealSection, withSubsection_hide]
    split <;> rfl
  | none =>
    simp only [hseen, withSettings_hide]
    split
    · rfl
    · split <;> rfl

theorem add_hide (g : Grouping) (key contents : Value) :
    (hideGrouping g).add Database.isHeadingValue (key, hideContents key contents)
      = hideGrouping <$> g.add Database.isHeadingValue (key, contents) := by
  have hinsert : ({ hideGrouping g with
      tree := (hideGrouping g).tree.insert key (.plain (hideContents key contents)) } : Grouping)
      = hideGrouping { g with tree := g.tree.insert key (.plain contents) } := by
    simp only [hideGrouping, ← insert_hideTree, hideEntry]
  have hkeep : (if key.isHashable then Except.ok { hideGrouping g with
        tree := (hideGrouping g).tree.insert key (.plain (hideContents key contents)) } else .error Fault.wrongType)
      = hideGrouping <$> if key.isHashable then Except.ok { g with tree := g.tree.insert key (.plain contents) }
        else .error .wrongType := by
    rw [hinsert]
    split <;> rfl
  cases key with
  | text name =>
    simp only [Grouping.add, Database.isHeadingValue]
    cases hk : Database.isHeading name with
    | true =>
      have hextra : Config.isExtra (.text name, .null) = false := by simp [Config.isExtra, hk]
      change ((hideGrouping g).addSection name _).mapError Fault.config
        = hideGrouping <$> (g.addSection name _).mapError _
      rw [hideContents_of_not_extra hextra, addSection_hide, Except.mapError_map]
    | false => exact hkeep
  | _ => exact hkeep

/-- Documents with hidden secrets are grouped like the documents themselves. -/
theorem coalesce_hideDocument (document : Document) :
    coalesce Database.isHeadingValue (hideDocument document)
      = hideTree <$> coalesce Database.isHeadingValue document := by
  have hfold : (hideDocument document).foldlM (Grouping.add Database.isHeadingValue) (hideGrouping {})
      = hideGrouping <$> document.foldlM (Grouping.add Database.isHeadingValue) {} := by
    rw [hideDocument, Settings.mapValues, List.foldlM_map]
    exact foldlM_eq_map (fun g e _ => add_hide g e.1 e.2) {}
  rw [coalesce, coalesce, Functor.map_map]
  change Grouping.tree <$> (hideDocument document).foldlM _ (hideGrouping {}) = _
  rw [hfold, Functor.map_map]
  rfl

end Stanza.Redaction
