import Stanza.Proofs.Database.Origin

/-! # Documents grouped by their headers

Grouping reads every matching key as a header, files the settings under it where the header says and keeps the other
entries as they are. What it gives is told from the headers alone, whichever way the entries are interleaved: nothing is
lost, merged or made up as long as no other key is called like a section.
-/
namespace Stanza

namespace Header

/-- A key without a subsection is the name of its section. -/
theorem name_eq_of_parse {key : String} {h : Header} (hp : parse ("[" ++ key ++ "]") = .ok h)
    (hs : h.subsection = none) : h.name = key := by
  have hl : ("[" ++ key ++ "]").toList = '[' :: (key.toList ++ [']']) := by simp
  rw [parse, Except.mapError_eq_ok_iff, read, hl, unbracket?_append, Option.bind_some] at hp
  split at hp
  · cases hp
  · next name hsplit =>
    cases hp
    rw [splitName] at hsplit
    split at hsplit
    · cases hsplit
    · next hrest _ =>
      cases hsplit
      have hall := List.takeWhile_append_dropWhile (p := isNameChar) (l := key.toList)
      rw [hrest, List.append_nil] at hall
      rw [hall, String.ofList_toList]
    · split at hsplit
      · split at hsplit <;> cases hsplit
      · cases hsplit
  · obtain ⟨cs, _, hp⟩ := Except.bind_eq_ok_iff.mp hp
    cases hp
    cases hs

end Header

namespace Section

variable {isHeader : String → Bool} {matcher : Value → Except Fault Bool} {document : Document}

def ownSettings : Value → Settings
  | .map entries => entries
  | _ => []

def reading? (isHeader : String → Bool) : Value × Value → Option (Header × Settings)
  | (.text key, value) =>
    if isHeader key then (Header.parse ("[" ++ key ++ "]")).toOption.map fun header => (header, ownSettings value)
    else none
  | _ => none

def readings (isHeader : String → Bool) (document : Document) : List (Header × Settings) :=
  document.filterMap (reading? isHeader)

def gathered (rs : List (Header × Settings)) (name : String) : Section where
  settings := (rs.lookup { name }).getD []
  subsections := rs.filterMap fun r => if r.1.name = name then r.1.subsection.map (·, r.2) else none

/-- No key is called like a section without being a header itself. -/
def Apart (isHeader : String → Bool) (document : Document) : Prop :=
  ∀ key, isHeader key = false → .text key ∈ Settings.keys document → ∀ r ∈ readings isHeader document, r.1.name ≠ key

/-- Every header can be read and holds settings, and none is met twice. -/
structure Groupable (isHeader : String → Bool) (document : Document) : Prop where
  parses : ∀ key, isHeader key = true → .text key ∈ Settings.keys document →
    ∃ header, Header.parse ("[" ++ key ++ "]") = .ok header
  mappings : ∀ key value, isHeader key = true → (.text key, value) ∈ document →
    value = .null ∨ ∃ entries, value = .map entries
  once : ((readings isHeader document).map Prod.fst).Nodup

/-- The tree holds just what the document says: the other keys with their last values and the sections. -/
structure Groups (isHeader : String → Bool) (document : Document) (tree : Tree) : Prop where
  plain : ∀ key value, isHeader key = false → Settings.get? document.reverse key = some value →
    tree.find? (.text key) = some (.plain value)
  grouped : ∀ r ∈ readings isHeader document,
    tree.find? (.text r.1.name) = some (.grouped (gathered (readings isHeader document) r.1.name))
  keys : ∀ e ∈ tree, (∃ key, e.1 = .text key ∧ isHeader key = false ∧ e.1 ∈ Settings.keys document) ∨
    ∃ r ∈ readings isHeader document, e.1 = .text r.1.name
  nodup : (tree.map Prod.fst).Nodup

/-! ## Readings -/

theorem settingsOf_eq_ok_iff {key : String} {value : Value} {settings : Settings} :
    settingsOf key value = .ok settings ↔
      (value = .null ∨ ∃ entries, value = .map entries) ∧ ownSettings value = settings := by
  cases value <;> simp [settingsOf, ownSettings]

theorem reading?_of_parse {key : String} {header : Header} (hk : isHeader key = true)
    (hp : Header.parse ("[" ++ key ++ "]") = .ok header) (value : Value) :
    reading? isHeader (.text key, value) = some (header, ownSettings value) := by
  rw [reading?, if_pos hk, hp]
  rfl

theorem reading?_eq_some {e : Value × Value} {r : Header × Settings} (h : reading? isHeader e = some r) :
    ∃ key, e.1 = .text key ∧ isHeader key = true ∧ Header.parse ("[" ++ key ++ "]") = .ok r.1 := by
  rcases e with ⟨key, value⟩
  cases key with
  | text key =>
    rw [reading?] at h
    split at h
    · next hk =>
      obtain ⟨header, hp, rfl⟩ := Option.map_eq_some_iff.mp h
      refine ⟨key, rfl, hk, ?_⟩
      cases hparse : Header.parse ("[" ++ key ++ "]") with
      | error flaw => rw [hparse] at hp; cases hp
      | ok other => rw [hparse] at hp; cases hp; rfl
    · cases h
  | _ => cases h

theorem readings_append (document : Document) (e : Value × Value) :
    readings isHeader (document ++ [e]) = readings isHeader document ++ (reading? isHeader e).toList := by
  rw [readings, List.filterMap_append, readings]
  cases h : reading? isHeader e <;> simp [h]

theorem readings_append_of_parse {key : String} {header : Header} (hk : isHeader key = true)
    (hp : Header.parse ("[" ++ key ++ "]") = .ok header) (value : Value) :
    readings isHeader (document ++ [(.text key, value)]) = readings isHeader document ++ [(header, ownSettings value)] := by
  rw [readings_append, reading?_of_parse hk hp]
  rfl

theorem readings_append_of_not {key : String} (hk : isHeader key = false) (value : Value) :
    readings isHeader (document ++ [(.text key, value)]) = readings isHeader document := by
  rw [readings_append, reading?, hk]
  exact List.append_nil _

theorem Apart.of_append {e : Value × Value} (h : Apart isHeader (document ++ [e])) : Apart isHeader document := by
  intro key hk hm r hr
  refine h key hk ?_ r ?_
  · rw [Settings.keys, List.map_append]
    exact List.mem_append_left _ hm
  · rw [readings_append]
    exact List.mem_append_left _ hr

/-- Names of databases are headings themselves, so no other key can be called like one. -/
theorem apart_isHeading (document : Document) : Apart Database.isHeading document := by
  rintro key hk - r hr rfl
  obtain ⟨e, _, he⟩ := List.mem_filterMap.mp hr
  obtain ⟨other, _, hother, hp⟩ := reading?_eq_some he
  rw [Database.isHeading_name hother hp] at hk
  cases hk

theorem groupable_append_iff {key : String} {value : Value} : Groupable isHeader (document ++ [(.text key, value)]) ↔
    Groupable isHeader document ∧ (isHeader key = true → ∃ header, Header.parse ("[" ++ key ++ "]") = .ok header ∧
      (value = .null ∨ ∃ entries, value = .map entries) ∧ header ∉ (readings isHeader document).map Prod.fst) := by
  have hkeys : Settings.keys (document ++ [(.text key, value)]) = Settings.keys document ++ [.text key] := by
    simp [Settings.keys]
  constructor
  · rintro ⟨hparses, hmappings, honce⟩
    rw [readings_append, List.map_append] at honce
    obtain ⟨honce, -, hlast⟩ := List.nodup_append'.mp honce
    refine ⟨⟨fun k hk hm => hparses k hk (by simp [hkeys, hm]), fun k v hk hm => hmappings k v hk (by simp [hm]), honce⟩,
      fun hk => ?_⟩
    obtain ⟨header, hp⟩ := hparses key hk (by simp [hkeys])
    refine ⟨header, hp, hmappings key value hk (by simp), fun hm => hlast hm ?_⟩
    simp [reading?_of_parse hk hp]
  · rintro ⟨⟨hparses, hmappings, honce⟩, hlast⟩
    refine ⟨fun k hk hm => ?_, fun k v hk hm => ?_, ?_⟩
    · rw [hkeys, List.mem_append, List.mem_singleton] at hm
      rcases hm with hm | hm
      · exact hparses k hk hm
      · cases hm
        obtain ⟨header, hp, _⟩ := hlast hk
        exact ⟨header, hp⟩
    · rw [List.mem_append, List.mem_singleton] at hm
      rcases hm with hm | hm
      · exact hmappings k v hk hm
      · cases hm
        obtain ⟨_, _, hv, _⟩ := hlast hk
        exact hv
    · cases hk : isHeader key with
      | false => rwa [readings_append_of_not hk]
      | true =>
        obtain ⟨header, hp, _, hn⟩ := hlast hk
        rw [readings_append_of_parse hk hp, List.map_append]
        exact List.nodup_append'.mpr ⟨honce, List.nodup_singleton _, by simpa using hn⟩

/-! ## Sections -/

variable {rs : List (Header × Settings)}

theorem lookup_eq_none {header : Header} (h : header ∉ rs.map Prod.fst) : rs.lookup header = none := by
  rw [List.lookup_eq_none_iff]
  intro r hr
  rw [bne_iff_ne]
  rintro rfl
  exact h (List.mem_map_of_mem hr)

theorem gathered_of_not_mem {name : String} (h : ∀ r ∈ rs, r.1.name ≠ name) : gathered rs name = {} := by
  have hlookup : rs.lookup { name } = none := by
    refine lookup_eq_none fun hm => ?_
    obtain ⟨r, hr, hn⟩ := List.mem_map.mp hm
    exact h r hr (congrArg Header.name hn)
  have hsubs : rs.filterMap (fun r => if r.1.name = name then r.1.subsection.map (·, r.2) else none) = [] :=
    List.filterMap_eq_nil_iff.mpr fun r hr => if_neg (h r hr)
  rw [gathered, hlookup, hsubs]
  rfl

theorem hasSubsection_gathered {name sub : String} :
    (gathered rs name).hasSubsection sub = true ↔ ⟨name, some sub⟩ ∈ rs.map Prod.fst := by
  simp only [hasSubsection, gathered, List.any_eq_true, List.mem_filterMap, beq_iff_eq, List.mem_map]
  constructor
  · rintro ⟨s, ⟨r, hr, hs⟩, rfl⟩
    split at hs
    · next hname =>
      obtain ⟨sub, hsub, rfl⟩ := Option.map_eq_some_iff.mp hs
      refine ⟨r, hr, ?_⟩
      rw [← hname, ← hsub]
    · cases hs
  · rintro ⟨⟨header, settings⟩, hr, rfl⟩
    exact ⟨(sub, settings), ⟨_, hr, by simp⟩, rfl⟩

theorem gathered_append_of_ne {name : String} {header : Header} (h : header.name ≠ name) (settings : Settings) :
    gathered (rs ++ [(header, settings)]) name = gathered rs name := by
  have hne : ({ name } : Header) ≠ header := fun he => h (congrArg Header.name he).symm
  simp [gathered, List.lookup_append, List.lookup_cons, beq_false_of_ne hne, h]

theorem gathered_append_sub {name sub : String} (settings : Settings) :
    gathered (rs ++ [(⟨name, some sub⟩, settings)]) name =
      { gathered rs name with subsections := (gathered rs name).subsections ++ [(sub, settings)] } := by
  have hne : ({ name } : Header) ≠ ⟨name, some sub⟩ := by simp
  simp [gathered, List.lookup_append, List.lookup_cons, beq_false_of_ne hne]

theorem gathered_append_own {name : String} (h : ⟨name, none⟩ ∉ rs.map Prod.fst) (settings : Settings) :
    gathered (rs ++ [(⟨name, none⟩, settings)]) name = { gathered rs name with settings } := by
  have hlookup := lookup_eq_none h
  simp [gathered, List.lookup_append, hlookup]

/-! ## The grouping so far -/

theorem Tree.isSome_find?_iff {t : Tree} {name : String} :
    (t.find? (.text name)).isSome = true ↔ .text name ∈ t.map Prod.fst := by
  rw [Tree.find?, Option.isSome_map, List.find?_isSome, List.mem_map]
  simp only [Value.same_text_iff]

theorem Tree.map_fst_insert (t : Tree) (name : String) (entry : Entry) : (t.insert (.text name) entry).map Prod.fst =
    if (t.find? (.text name)).isSome then t.map Prod.fst else t.map Prod.fst ++ [.text name] := by
  induction t with
  | nil => rfl
  | cons e t ih =>
    rw [insert_cons, find?_cons]
    split
    · rfl
    · rw [List.map_cons, ih]
      split <;> rfl

theorem Tree.text_insert {t : Tree} (h : ∀ e ∈ t, ∃ key, e.1 = .text key) (name : String) (entry : Entry) :
    ∀ e ∈ t.insert (.text name) entry, ∃ key, e.1 = .text key := by
  have hkeys : ∀ k ∈ t.map Prod.fst, ∃ key, k = Value.text key := List.forall_mem_map.mpr h
  intro e he
  have hmem : e.1 ∈ (t.insert (.text name) entry).map Prod.fst := List.mem_map_of_mem he
  rw [Tree.map_fst_insert] at hmem
  split at hmem
  · exact hkeys _ hmem
  · rcases List.mem_append.mp hmem with hmem | hmem
    · exact hkeys _ hmem
    · exact ⟨name, List.mem_singleton.mp hmem⟩

theorem Tree.nodup_insert {t : Tree} (h : (t.map Prod.fst).Nodup) (name : String) (entry : Entry) :
    ((t.insert (.text name) entry).map Prod.fst).Nodup := by
  rw [Tree.map_fst_insert]
  split
  · exact h
  · next hn =>
    rw [Tree.isSome_find?_iff] at hn
    exact List.nodup_append'.mpr ⟨h, List.nodup_singleton _, by simpa using hn⟩

theorem get?_reverse_append (document : Document) (key : String) (value : Value) (name : String) :
    Settings.get? (document ++ [(Value.text key, value)]).reverse name =
      if key = name then some value else Settings.get? document.reverse name := by
  rw [List.reverse_append, List.reverse_singleton, List.singleton_append, Settings.get?_cons]
  simp [Settings.hasName]

structure Gathers (isHeader : String → Bool) (document : Document) (g : Grouping) : Prop where
  grouped : ∀ r ∈ readings isHeader document,
    g.tree.find? (.text r.1.name) = some (.grouped (gathered (readings isHeader document) r.1.name))
  plain : ∀ key, (∀ r ∈ readings isHeader document, r.1.name ≠ key) → g.tree.find? (.text key) =
    if isHeader key then none else (Settings.get? document.reverse key).map .plain
  seen : ∀ name, g.seen.contains name = true ↔ ⟨name, none⟩ ∈ (readings isHeader document).map Prod.fst
  text : ∀ e ∈ g.tree, ∃ key, e.1 = .text key
  nodup : (g.tree.map Prod.fst).Nodup

variable {g out : Grouping} {key : String} {value : Value}

theorem Gathers.node (hg : Gathers isHeader document g) (name : String) :
    g.tree.node name = gathered (readings isHeader document) name := by
  by_cases h : ∃ r ∈ readings isHeader document, r.1.name = name
  · obtain ⟨r, hr, rfl⟩ := h
    rw [Tree.node, hg.grouped r hr]
  · have hn : ∀ r ∈ readings isHeader document, r.1.name ≠ name := fun r hr he => h ⟨r, hr, he⟩
    rw [gathered_of_not_mem hn, Tree.node, hg.plain name hn]
    cases isHeader name with
    | true => rfl
    | false => cases Settings.get? document.reverse name <;> rfl

/-- What one more entry does. -/
theorem Gathers.add_eq_ok_iff (hm : ∀ key, matcher (.text key) = .ok (isHeader key)) (hg : Gathers isHeader document g) :
    g.add matcher (.text key, value) = .ok out ↔
      if isHeader key then ∃ header, Header.parse ("[" ++ key ++ "]") = .ok header ∧
        (value = .null ∨ ∃ entries, value = .map entries) ∧ header ∉ (readings isHeader document).map Prod.fst ∧
        { tree := g.tree.insert (.text header.name)
            (.grouped (gathered (readings isHeader document ++ [(header, ownSettings value)]) header.name)),
          seen := if header.subsection = none then header.name :: g.seen else g.seen } = out
      else { g with tree := g.tree.insert (.text key) (.plain value) } = out := by
  rw [Grouping.add, hm]
  cases hk : isHeader key with
  | false => exact ⟨Except.ok.inj, congrArg Except.ok⟩
  | true =>
    refine Except.mapError_eq_ok_iff.trans (Grouping.addSection_eq_ok_iff.trans (exists_congr fun header => ?_))
    refine and_congr_right fun hp => ?_
    simp only [settingsOf_eq_ok_iff, and_assoc, exists_and_left, exists_eq_left']
    refine and_congr_right fun _ => ?_
    rcases header with ⟨name, subsection⟩
    cases subsection with
    | some sub =>
      dsimp only
      rw [Grouping.withSubsection, hg.node, gathered_append_sub, ← hasSubsection_gathered, Bool.not_eq_true]
      simp
    | none =>
      -- a header without a subsection is the key itself, so it is never misread
      have hname : name = key := Header.name_eq_of_parse hp rfl
      dsimp only
      rw [Grouping.withSettings, hg.node, ← hg.seen name, Bool.not_eq_true]
      simp only [hname, true_and]
      refine and_congr_right fun hs => ?_
      rw [gathered_append_own]
      · simp
      · rw [← hg.seen key, hs]
        exact Bool.false_ne_true

theorem Gathers.insert_plain (hg : Gathers isHeader document g) (hk : isHeader key = false)
    (ha : Apart isHeader (document ++ [(.text key, value)])) :
    Gathers isHeader (document ++ [(.text key, value)]) { g with tree := g.tree.insert (.text key) (.plain value) } := by
  have hr : readings isHeader (document ++ [(.text key, value)]) = readings isHeader document :=
    readings_append_of_not hk value
  have hother : ∀ r ∈ readings isHeader document, r.1.name ≠ key := by
    intro r hmem
    exact ha key hk (by simp [Settings.keys]) r (hr ▸ hmem)
  refine ⟨fun r hmem => ?_, fun name hname => ?_, fun name => ?_, Tree.text_insert hg.text _ _,
    Tree.nodup_insert hg.nodup _ _⟩
  · rw [hr] at hmem ⊢
    rw [Tree.find?_insert, if_neg (hother r hmem).symm, hg.grouped r hmem]
  · rw [hr] at hname
    rw [Tree.find?_insert, hg.plain name hname, get?_reverse_append]
    by_cases he : key = name
    · rw [if_pos he, if_pos he, ← he, hk]
      rfl
    · rw [if_neg he, if_neg he]
  · rw [hr]
    exact hg.seen name

theorem Gathers.insert_grouped (hg : Gathers isHeader document g) (hk : isHeader key = true) {header : Header}
    (hp : Header.parse ("[" ++ key ++ "]") = .ok header) : Gathers isHeader (document ++ [(.text key, value)])
      { tree := g.tree.insert (.text header.name)
          (.grouped (gathered (readings isHeader document ++ [(header, ownSettings value)]) header.name)),
        seen := if header.subsection = none then header.name :: g.seen else g.seen } := by
  have hr : readings isHeader (document ++ [(.text key, value)]) = readings isHeader document ++ [(header, ownSettings value)] :=
    readings_append_of_parse hk hp value
  refine ⟨fun r hmem => ?_, fun name hname => ?_, fun name => ?_, Tree.text_insert hg.text _ _,
    Tree.nodup_insert hg.nodup _ _⟩
  · rw [hr] at hmem ⊢
    rw [Tree.find?_insert]
    by_cases hn : header.name = r.1.name
    · rw [if_pos hn, hn]
    · rw [if_neg hn, gathered_append_of_ne hn]
      rcases List.mem_append.mp hmem with hmem | hmem
      · exact hg.grouped r hmem
      · exact absurd (congrArg (·.1.name) (List.mem_singleton.mp hmem)).symm hn
  · rw [hr] at hname
    have hn : header.name ≠ name := hname _ (List.mem_append_right _ (List.mem_singleton_self _))
    have hbefore := hg.plain name fun r hmem => hname r (List.mem_append_left _ hmem)
    rw [Tree.find?_insert, if_neg hn, hbefore, get?_reverse_append]
    by_cases he : key = name
    · rw [← he, hk, if_pos rfl, if_pos rfl]
    · rw [if_neg he]
  · rw [hr, List.map_append, List.mem_append, ← hg.seen name]
    rcases header with ⟨other, subsection⟩
    cases subsection with
    | some sub => simp
    | none => simp [or_comm]

theorem Gathers.add (hm : ∀ key, matcher (.text key) = .ok (isHeader key)) (hg : Gathers isHeader document g)
    (ha : Apart isHeader (document ++ [(.text key, value)])) (h : g.add matcher (.text key, value) = .ok out) :
    Gathers isHeader (document ++ [(.text key, value)]) out := by
  rw [hg.add_eq_ok_iff hm] at h
  split at h
  · next hk =>
    obtain ⟨header, hp, _, _, rfl⟩ := h
    exact hg.insert_grouped hk hp
  · next hk =>
    subst h
    exact hg.insert_plain (Bool.eq_false_iff.mpr hk) ha

/-! ## The whole document -/

theorem foldlM_gathers (hm : ∀ key, matcher (.text key) = .ok (isHeader key)) (ht : Settings.TextKeys document)
    (ha : Apart isHeader document) :
    ((∃ g, document.foldlM (Grouping.add matcher) {} = .ok g) ↔ Groupable isHeader document) ∧
      ∀ g, document.foldlM (Grouping.add matcher) {} = .ok g → Gathers isHeader document g := by
  induction document using List.reverseRecOn with
  | nil =>
    have hempty : Gathers isHeader [] {} := by
      refine ⟨by simp [readings], fun key _ => ?_, by simp [readings], by simp, List.nodup_nil⟩
      cases isHeader key <;> rfl
    refine ⟨iff_of_true ⟨{}, rfl⟩ ⟨by simp [Settings.keys], by simp, List.nodup_nil⟩, fun g h => ?_⟩
    cases h
    exact hempty
  | append_singleton document e ih =>
    rcases e with ⟨k, value⟩
    obtain ⟨key, rfl⟩ := ht k (by simp [Settings.keys])
    obtain ⟨hiff, hall⟩ := ih (fun k hk => ht k (by rw [Settings.keys, List.map_append]; exact List.mem_append_left _ hk))
      ha.of_append
    have hsplit : ∀ out, (document ++ [(Value.text key, value)]).foldlM (Grouping.add matcher) {} = .ok out ↔
        ∃ g, document.foldlM (Grouping.add matcher) {} = .ok g ∧ g.add matcher (.text key, value) = .ok out := by
      intro out
      rw [List.foldlM_concat, Except.bind_eq_ok_iff]
    constructor
    · rw [groupable_append_iff, ← hiff]
      simp only [hsplit]
      constructor
      · rintro ⟨out, g, hg, hstep⟩
        refine ⟨⟨g, hg⟩, fun hk => ?_⟩
        rw [(hall g hg).add_eq_ok_iff hm, if_pos hk] at hstep
        obtain ⟨header, hp, hv, hn, _⟩ := hstep
        exact ⟨header, hp, hv, hn⟩
      · rintro ⟨⟨g, hg⟩, hlast⟩
        simp only [exists_comm (α := Grouping), exists_and_left]
        refine ⟨g, hg, ?_⟩
        simp only [(hall g hg).add_eq_ok_iff hm]
        split
        · next hk =>
          obtain ⟨header, hp, hv, hn⟩ := hlast hk
          exact ⟨_, header, hp, hv, hn, rfl⟩
        · exact ⟨_, rfl⟩
    · intro out h
      obtain ⟨g, hg, hstep⟩ := (hsplit out).mp h
      exact (hall g hg).add hm ha hstep

theorem exists_coalesce_iff (hm : ∀ key, matcher (.text key) = .ok (isHeader key)) (ht : Settings.TextKeys document)
    (ha : Apart isHeader document) : (∃ tree, coalesce matcher document = .ok tree) ↔ Groupable isHeader document := by
  rw [← (foldlM_gathers hm ht ha).1]
  simp only [coalesce, Except.map_eq_ok_iff]
  constructor
  · rintro ⟨_, g, hg, _⟩
    exact ⟨g, hg⟩
  · rintro ⟨g, hg⟩
    exact ⟨_, g, hg, rfl⟩

theorem gathers_of_coalesce (hm : ∀ key, matcher (.text key) = .ok (isHeader key)) (ht : Settings.TextKeys document)
    (ha : Apart isHeader document) {tree : Tree} (h : coalesce matcher document = .ok tree) :
    ∃ g, g.tree = tree ∧ Gathers isHeader document g := by
  obtain ⟨g, hg, rfl⟩ := Except.map_eq_ok_iff.mp h
  exact ⟨g, rfl, (foldlM_gathers hm ht ha).2 g hg⟩

theorem Gathers.groups (hg : Gathers isHeader document g) (ha : Apart isHeader document) :
    Groups isHeader document g.tree := by
  have hother : ∀ key, isHeader key = false → .text key ∈ Settings.keys document →
      g.tree.find? (.text key) = (Settings.get? document.reverse key).map .plain := by
    intro key hk hkey
    rw [hg.plain key (ha key hk hkey), hk]
    rfl
  have hreverse : ∀ key, (Settings.get? document.reverse key).isSome = true ↔ .text key ∈ Settings.keys document := by
    intro key
    rw [← Settings.has_eq_isSome, Settings.has_iff_mem_keys, Settings.keys, List.map_reverse, List.mem_reverse]
    rfl
  refine ⟨fun key value hk hv => ?_, hg.grouped, fun e he => ?_, hg.nodup⟩
  · rw [hother key hk ((hreverse key).mp (hv ▸ rfl)), hv]
    rfl
  · obtain ⟨key, hkey⟩ := hg.text e he
    by_cases h : ∃ r ∈ readings isHeader document, r.1.name = key
    · obtain ⟨r, hr, rfl⟩ := h
      exact .inr ⟨r, hr, hkey⟩
    · have hfound : (g.tree.find? (.text key)).isSome = true :=
        Tree.isSome_find?_iff.mpr (hkey ▸ List.mem_map_of_mem he)
      rw [hg.plain key fun r hr hn => h ⟨r, hr, hn⟩] at hfound
      cases hk : isHeader key with
      | true => simp [hk] at hfound
      | false =>
        rw [hk, if_neg Bool.false_ne_true, Option.isSome_map] at hfound
        exact .inl ⟨key, hkey, hk, hkey ▸ (hreverse key).mp hfound⟩

/-- Documents in which no other key is called like a section are grouped if every header can be read and none stands
twice, into the sections that the headers describe. For databases there is never such a key. -/
theorem coalesce_groups (isHeader : String → Bool) (matcher : Value → Except Fault Bool)
    (hm : ∀ key, matcher (.text key) = .ok (isHeader key)) (document : Document) (ht : Settings.TextKeys document) :
    (Apart isHeader document → ((∃ tree, coalesce matcher document = .ok tree) ↔ Groupable isHeader document) ∧
      ∀ tree, coalesce matcher document = .ok tree → Groups isHeader document tree) ∧
      Apart Database.isHeading document := by
  refine ⟨fun ha => ⟨exists_coalesce_iff hm ht ha, fun tree h => ?_⟩, apart_isHeading document⟩
  obtain ⟨g, rfl, hg⟩ := gathers_of_coalesce hm ht ha h
  exact hg.groups ha

/-- A subsection before its section, with a key between them that is given twice. -/
theorem coalesce_groups_interleaved :
    ∃ tree, coalesce Database.isHeadingValue [(.text "database \"a\"", .map [(.text "port", .int 1)]),
        (.text "global", .int 1), (.text "database", .map [(.text "port", .int 2)]), (.text "global", .int 2)] = .ok tree ∧
      Groups Database.isHeading [(.text "database \"a\"", .map [(.text "port", .int 1)]),
        (.text "global", .int 1), (.text "database", .map [(.text "port", .int 2)]), (.text "global", .int 2)] tree := by
  let document : Document := [(.text "database \"a\"", .map [(.text "port", .int 1)]), (.text "global", .int 1),
    (.text "database", .map [(.text "port", .int 2)]), (.text "global", .int 2)]
  have ht : Settings.TextKeys document := by simp [Settings.TextKeys, Settings.keys, document]
  obtain ⟨h, ha⟩ := coalesce_groups Database.isHeading Database.isHeadingValue (fun _ => rfl) document ht
  exact ⟨_, rfl, (h ha).2 _ rfl⟩

end Section

end Stanza
