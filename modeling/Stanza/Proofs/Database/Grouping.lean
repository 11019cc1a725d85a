import Stanza.Proofs.Database.Resolution
import Stanza.Proofs.Header

/-! # Documents by their parts

A document that is put together from settings of the database, of its subsections and of other sections groups into
just these.
-/
namespace Stanza.Database

open Section

inductive Part where
  /-- The settings of the database section itself. -/
  | own (settings : Settings)
  | sub (name : String) (settings : Settings)
  /-- A section that has nothing to do with databases. -/
  | plain (name : String) (contents : Value)

namespace Part

def entry : Part → Value × Value
  | own settings => (.text "database", .map settings)
  | sub name settings => (.text (label (some name)), .map settings)
  | plain name contents => (.text name, contents)

def own? : Part → Option Settings
  | own settings => some settings
  | _ => none

def sub? : Part → Option (String × Settings)
  | sub name settings => some (name, settings)
  | _ => none

def plain? : Part → Option (Value × Value)
  | plain name contents => some (.text name, contents)
  | _ => none

def database (parts : List Part) : Section where
  settings := ((parts.filterMap own?).head?).getD []
  subsections := parts.filterMap sub?

end Part

def CleanName (name : String) : Prop := ∀ c ∈ name.toList, Header.isForbidden c = false ∧ c ≠ '\n'

/-- Parts with nothing repeated and names that can be written. -/
structure Regular (parts : List Part) : Prop where
  own : (parts.filterMap Part.own?).length ≤ 1
  subs : ((parts.filterMap Part.sub?).map Prod.fst).Nodup
  clean : ∀ e ∈ parts.filterMap Part.sub?, CleanName e.1
  plains : (Settings.keys (parts.filterMap Part.plain?)).Nodup
  plain : ∀ name contents, Part.plain name contents ∈ parts → isHeading name = false

/-! ## Single parts -/

theorem toList_label (name : String) :
    (label (some name)).toList = "database".toList ++ ' ' :: (Text.quoted name).toList := by
  simp [label, Header.label]

/-- Whether a label is a heading hangs on line feeds alone. -/
theorem isHeading_label_iff {name : String} : isHeading (label (some name)) = true ↔ '\n' ∉ name.toList := by
  rw [isHeading, Bool.and_eq_true, toList_label, Bool.not_eq_true', List.contains_eq_mem, decide_eq_false_iff_not]
  constructor
  · rintro ⟨-, hn⟩ hm
    exact hn (List.mem_append_right _ (List.mem_cons_of_mem _ (Text.mem_quoted hm)))
  · refine fun hn => ⟨List.isPrefixOf_iff_prefix.mpr (List.prefix_append _ _), ?_⟩
    simp only [Text.toList_quoted, List.mem_append, List.mem_cons]
    rintro (hm | hm | hm | hm | hm)
    · exact absurd hm (by decide)
    · exact absurd hm (by decide)
    · exact absurd hm (by decide)
    · rcases Text.mem_of_mem_escape hm with hm | hm
      · exact absurd hm (by decide)
      · exact hn hm
    · exact absurd hm (by decide)

theorem isHeading_label {name : String} (h : CleanName name) : isHeading (label (some name)) = true :=
  isHeading_label_iff.mpr fun hm => (h _ hm).2 rfl

theorem clean_database {name : Option String} (h : ∀ n, name = some n → CleanName n) :
    Header.Clean { name := "database", subsection := name } where
  name_ne := by simp
  name := List.all_eq_true.mp (by decide : "database".toList.all Header.isNameChar = true)
  subsection := fun n hn c hc => (h n hn c hc).1

theorem parse_label {name : Option String} (h : ∀ n, name = some n → CleanName n) :
    Header.parse ("[" ++ label name ++ "]") = .ok { name := "database", subsection := name } :=
  Header.parse_format (clean_database h)

variable {g out : Grouping}

theorem add_text_eq_ok_iff {key : String} {value : Value} :
    g.add isHeadingValue (.text key, value) = .ok out ↔
      if isHeading key then g.addSection key value = .ok out
      else { g with tree := g.tree.insert (.text key) (.plain value) } = out := by
  simp only [Grouping.add, isHeadingValue]
  cases isHeading key with
  | true => exact Except.mapError_eq_ok_iff
  | false => exact ⟨Except.ok.inj, congrArg _⟩

theorem add_of_not_text {key : Value} (hk : key.isText = false) (value : Value) :
    g.add isHeadingValue (key, value) =
      if key.isHashable then .ok { g with tree := g.tree.insert key (.plain value) } else .error .wrongType := by
  cases key with
  | text name => cases hk
  | _ => rfl

theorem add_plain {name : String} {contents : Value} (h : isHeading name = false) :
    g.add isHeadingValue (Part.plain name contents).entry
      = .ok { g with tree := g.tree.insert (.text name) (.plain contents) } := by
  rw [Part.entry, add_text_eq_ok_iff, h]
  rfl

theorem add_sub {name : String} {settings : Settings} (hc : CleanName name)
    (hn : (g.tree.node "database").hasSubsection name = false) :
    g.add isHeadingValue (Part.sub name settings).entry = .ok (g.withSubsection "database" name settings) := by
  rw [Part.entry, add_text_eq_ok_iff, if_pos (isHeading_label hc), Grouping.addSection_eq_ok_iff]
  exact ⟨_, parse_label fun n hn => Option.some.inj hn ▸ hc, settings, rfl, hn, rfl⟩

theorem add_own {settings : Settings} (hs : g.seen.contains "database" = false) :
    g.add isHeadingValue (Part.own settings).entry = .ok (g.withSettings "database" settings) := by
  have hp : Header.parse ("[" ++ "database" ++ "]") = .ok ⟨"database", none⟩ := @parse_label none (by simp)
  rw [Part.entry, add_text_eq_ok_iff, if_pos (by decide), Grouping.addSection_eq_ok_iff]
  exact ⟨_, hp, settings, rfl, rfl, hs, rfl⟩

/-! ## All parts -/

structure Collects (parts : List Part) (g : Grouping) : Prop where
  node : g.tree.node "database" = Part.database parts
  seen : g.seen.contains "database" = (parts.filterMap Part.own?).any fun _ => true
  plain : ∀ name, isHeading name = false →
    g.tree.find? (.text name) = (Settings.get? (parts.filterMap Part.plain?) name).map .plain

theorem find?_withSubsection {name sub : String} {settings : Settings} (h : isHeading name = false) :
    (g.withSubsection "database" sub settings).tree.find? (.text name) = g.tree.find? (.text name) := by
  rw [Grouping.withSubsection, Tree.find?_insert, if_neg]
  rintro rfl
  exact absurd h (by decide)

theorem find?_withSettings {name : String} {settings : Settings} (h : isHeading name = false) :
    (g.withSettings "database" settings).tree.find? (.text name) = g.tree.find? (.text name) := by
  rw [Grouping.withSettings, Tree.find?_insert, if_neg]
  rintro rfl
  exact absurd h (by decide)

variable {parts : List Part}

theorem Collects.own (hc : Collects parts g) (hown : parts.filterMap Part.own? = []) (settings : Settings) :
    ∃ out, g.add isHeadingValue (Part.own settings).entry = .ok out ∧ Collects (parts ++ [.own settings]) out := by
  refine ⟨_, add_own (by rw [hc.seen, hown]; rfl), ?_, ?_, fun name h => ?_⟩
  · rw [Grouping.node_withSettings, hc.node]
    simp [Part.database, hown, Part.own?, Part.sub?]
  · simp [Grouping.withSettings, Part.own?]
  · have hp : (parts ++ [Part.own settings]).filterMap Part.plain? = parts.filterMap Part.plain? := by simp [Part.plain?]
    rw [find?_withSettings h, hc.plain name h, hp]

theorem Collects.sub (hc : Collects parts g) {name : String} (hclean : CleanName name)
    (hn : name ∉ (parts.filterMap Part.sub?).map Prod.fst) (settings : Settings) :
    ∃ out, g.add isHeadingValue (Part.sub name settings).entry = .ok out ∧
      Collects (parts ++ [.sub name settings]) out := by
  have hnew : (g.tree.node "database").hasSubsection name = false := by
    rw [hc.node, hasSubsection, List.any_eq_false]
    intro e he hk
    exact hn (eq_of_beq hk ▸ List.mem_map_of_mem he)
  refine ⟨_, add_sub hclean hnew, ?_, ?_, fun other h => ?_⟩
  · rw [Grouping.node_withSubsection, hc.node]
    simp [Part.database, Part.own?, Part.sub?]
  · rw [Grouping.withSubsection, hc.seen]
    simp [Part.own?]
  · have hp : (parts ++ [Part.sub name settings]).filterMap Part.plain? = parts.filterMap Part.plain? := by
      simp [Part.plain?]
    rw [find?_withSubsection h, hc.plain other h, hp]

theorem Collects.plainPart (hc : Collects parts g) {name : String} (hplain : isHeading name = false)
    (hn : .text name ∉ Settings.keys (parts.filterMap Part.plain?)) (contents : Value) :
    ∃ out, g.add isHeadingValue (Part.plain name contents).entry = .ok out ∧
      Collects (parts ++ [.plain name contents]) out := by
  refine ⟨_, add_plain hplain, ?_, ?_, fun other h => ?_⟩
  · rw [Tree.node_insert_of_ne, hc.node]
    · simp [Part.database, Part.own?, Part.sub?]
    · rintro rfl
      exact absurd hplain (by decide)
  · rw [hc.seen]
    simp [Part.own?]
  · have hp : (parts ++ [Part.plain name contents]).filterMap Part.plain?
        = Settings.set (parts.filterMap Part.plain?) name contents := by
      rw [Settings.set_of_not_has]
      · simp [Part.plain?]
      · exact Bool.eq_false_iff.mpr fun hh => hn (Settings.has_iff_mem_keys.mp hh)
    rw [Tree.find?_insert, hc.plain other h, hp, Settings.get?_set]
    split <;> rfl

theorem exists_collects {parts : List Part} (h : Regular parts) :
    ∃ g, (parts.map Part.entry).foldlM (Grouping.add isHeadingValue) {} = .ok g ∧ Collects parts g := by
  -- from the end on, as a grouping only knows about the parts it has met
  induction parts using List.reverseRecOn with
  | nil => exact ⟨{}, rfl, rfl, rfl, fun _ _ => rfl⟩
  | append_singleton parts part ih =>
    obtain ⟨hown, hsubs, hclean, hplains, hplain⟩ := h
    simp only [List.filterMap_append, List.map_append, List.length_append, Settings.keys] at hown hsubs hclean hplains
    obtain ⟨hsubs, -, hsub⟩ := List.nodup_append'.mp hsubs
    obtain ⟨hplains, -, hpart⟩ := List.nodup_append'.mp hplains
    obtain ⟨g, hg, hc⟩ := ih ⟨by omega, hsubs, fun e he => hclean e (List.mem_append_left _ he), hplains,
      fun name contents hm => hplain name contents (List.mem_append_left _ hm)⟩
    have hstep : ∃ out, g.add isHeadingValue part.entry = .ok out ∧ Collects (parts ++ [part]) out := by
      cases part with
      | own settings => exact hc.own (List.length_eq_zero_iff.mp (by simpa [Part.own?] using hown)) settings
      | sub name settings =>
        refine hc.sub (hclean (name, settings) (by simp [Part.sub?])) (fun hm => ?_) settings
        exact hsub hm (by simp [Part.sub?])
      | plain name contents =>
        refine hc.plainPart (hplain name contents (by simp)) (fun hm => ?_) contents
        exact hpart hm (by simp [Part.plain?])
    obtain ⟨out, hout, hcollects⟩ := hstep
    refine ⟨out, ?_, hcollects⟩
    rw [List.map_append, List.map_singleton, List.foldlM_concat, hg]
    exact hout

/-- Regular parts are grouped into the database section and the sections that have nothing to do with it. -/
theorem exists_coalesce_parts (h : Regular parts) :
    ∃ tree, coalesce isHeadingValue (parts.map Part.entry) = .ok tree ∧ tree.node "database" = Part.database parts ∧
      ∀ name, isHeading name = false →
        plainAt tree name = Settings.get (parts.filterMap Part.plain?) name := by
  obtain ⟨g, hg, hc⟩ := exists_collects h
  refine ⟨g.tree, ?_, hc.node, fun name hname => ?_⟩
  · rw [coalesce, hg]
    rfl
  · rw [plainAt, hc.plain name hname, Settings.get]
    cases Settings.get? (parts.filterMap Part.plain?) name <;> rfl

/-- A document of regular parts is resolved if its database section and its profile for reading are. -/
theorem resolve_parts_eq_ok_iff [Pattern.Compiler] (h : Regular parts) {r : Resolution} :
    (resolve (parts.map Part.entry)).result = .ok r ↔
      ((cascade (Part.database parts)).resolve fun name _ settings => fixUp name settings).result = .ok r.profiles ∧
      (∀ e ∈ r.profiles.toList, validate e.2 e.1 = .ok ()) ∧
      (readProfile (Settings.get (parts.filterMap Part.plain?) "read-database")
        (.map (r.profiles.primary?.getD []))).result = .ok r.readProfile := by
  obtain ⟨tree, htree, hnode, hplain⟩ := exists_coalesce_parts h
  rw [resolve_eq_ok_iff, htree]
  simp only [Except.ok.injEq, exists_eq_left', hnode, hplain _ (by decide : isHeading "read-database" = false)]

end Stanza.Database
