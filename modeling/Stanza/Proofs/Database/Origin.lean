import Stanza.Proofs.Database.Grouping

/-! # Where grouped settings come from

Whatever holds of all settings that a document gives under database headings holds of what they are grouped into.
Grouping refuses a heading that it has met before, so a document that can be grouped repeats none.
-/
namespace Stanza.Database

open Section

variable {g out : Grouping} {key : String} {value : Value}

theorem isHeading_name {header : Header} (hk : isHeading key = true)
    (hp : Header.parse ("[" ++ key ++ "]") = .ok header) : isHeading header.name = true := by
  have hname := (Header.parse_label_eq_ok hp).1
  obtain ⟨rest, hrest⟩ := List.isPrefixOf_iff_prefix.mp (Bool.and_eq_true_iff.mp hk).1
  have hall : ∀ c ∈ "database".toList, Header.isNameChar c = true :=
    List.all_eq_true.mp (by decide : "database".toList.all Header.isNameChar = true)
  rw [← hrest, List.takeWhile_append_of_pos hall] at hname
  rw [isHeading, hname, Bool.and_eq_true]
  refine ⟨List.isPrefixOf_iff_prefix.mpr (List.prefix_append _ _), ?_⟩
  simp only [Bool.not_eq_true', List.contains_eq_mem, decide_eq_false_iff_not, List.mem_append, not_or]
  exact ⟨by decide, fun hm => absurd (List.mem_takeWhile_imp hm) (by decide)⟩

theorem cleanName_of_parse {header : Header} (hk : isHeading key = true)
    (hp : Header.parse ("[" ++ key ++ "]") = .ok header) {sub : String} (hs : header.subsection = some sub) :
    CleanName sub := by
  intro c hc
  obtain ⟨hf, hm⟩ := (Header.parse_label_eq_ok hp).2 sub hs c hc
  refine ⟨hf, ?_⟩
  rintro rfl
  simp [isHeading, hm] at hk

/-! ## Sections -/

/-- Settings with some property throughout, under names that stand once. -/
structure Traced (P : Settings → Prop) (s : Section) : Prop where
  own : P s.settings
  subs : ∀ e ∈ s.subsections, CleanName e.1 ∧ P e.2
  nodup : (s.subsections.map Prod.fst).Nodup

variable {P : Settings → Prop}

theorem Traced.empty (hnil : P []) : Traced P {} := ⟨hnil, fun _ h => absurd h List.not_mem_nil, List.nodup_nil⟩

theorem Traced.withSubsection {s : Section} (h : Traced P s) {sub : String} {settings : Settings} (hc : CleanName sub)
    (hp : P settings) (hn : s.hasSubsection sub = false) :
    Traced P { s with subsections := s.subsections ++ [(sub, settings)] } where
  own := h.own
  subs := by
    intro e he
    rcases List.mem_append.mp he with he | he
    · exact h.subs e he
    · cases List.mem_singleton.mp he
      exact ⟨hc, hp⟩
  nodup := by
    rw [List.map_append]
    refine List.nodup_append'.mpr ⟨h.nodup, List.nodup_singleton _, fun name hm hs => ?_⟩
    obtain ⟨e, he, rfl⟩ := List.mem_map.mp hm
    rw [hasSubsection, List.any_eq_false] at hn
    exact hn e he (by simpa using hs)

theorem node_insert_plain (t : Section.Tree) (key : String) (value : Value) (name : String) :
    (t.insert (.text key) (.plain value)).node name = if key = name then {} else t.node name := by
  by_cases h : key = name
  · rw [Section.Tree.node, Tree.find?_insert, if_pos h, if_pos h]
  · rw [Tree.node_insert_of_ne _ h, if_neg h]

/-! ## One more key -/

inductive Added (g : Grouping) (key : String) (value : Value) : Grouping → Prop
  /-- A heading of a subsection that its section does not have yet. -/
  | subsection (header : Header) (sub : String) (settings : Settings) (heading : isHeading key = true)
      (parse : Header.parse ("[" ++ key ++ "]") = .ok header) (named : header.subsection = some sub)
      (given : settingsOf key value = .ok settings) (fresh : (g.tree.node header.name).hasSubsection sub = false) :
      Added g key value (g.withSubsection header.name sub settings)
  /-- A heading of a section whose own settings have not been seen. -/
  | own (header : Header) (settings : Settings) (heading : isHeading key = true)
      (parse : Header.parse ("[" ++ key ++ "]") = .ok header) (unnamed : header.subsection = none)
      (given : settingsOf key value = .ok settings) (fresh : g.seen.contains header.name = false) :
      Added g key value (g.withSettings header.name settings)
  | plain (heading : isHeading key = false) :
      Added g key value { g with tree := g.tree.insert (.text key) (.plain value) }

theorem added_of_add (h : g.add isHeadingValue (.text key, value) = .ok out) : Added g key value out := by
  rw [add_text_eq_ok_iff] at h
  split at h
  · next hk =>
    obtain ⟨header, hp, settings, hs, hout⟩ := Grouping.addSection_eq_ok_iff.mp h
    cases hsub : header.subsection with
    | some sub =>
      rw [hsub] at hout
      obtain ⟨hn, rfl⟩ := hout
      exact .subsection header sub settings hk hp hsub hs hn
    | none =>
      rw [hsub] at hout
      obtain ⟨_, hn, rfl⟩ := hout
      exact .own header settings hk hp hsub hs hn
  · next hk =>
    subst h
    exact .plain (Bool.eq_false_iff.mpr hk)

theorem settingsOf_property {settings : Settings} (hnil : P []) (hmap : ∀ entries, value = .map entries → P entries)
    (h : settingsOf key value = .ok settings) : P settings := by
  cases value with
  | null => cases h; exact hnil
  | map entries => cases h; exact hmap _ rfl
  | _ => cases h

theorem Added.traced (h : Added g key value out) (hnil : P [])
    (hmap : isHeading key = true → ∀ entries, value = .map entries → P entries)
    (hg : ∀ name, Traced P (g.tree.node name)) (name : String) : Traced P (out.tree.node name) := by
  -- only the section of the header changes, by one subsection or by settings of its own
  cases h with
  | subsection header sub settings hk hp hsub hs hn =>
    by_cases hname : header.name = name
    · subst hname
      rw [Grouping.node_withSubsection]
      exact (hg _).withSubsection (cleanName_of_parse hk hp hsub) (settingsOf_property hnil (hmap hk) hs) hn
    · rw [Grouping.withSubsection, Tree.node_insert_of_ne _ hname]
      exact hg name
  | own header settings hk hp hsub hs hn =>
    by_cases hname : header.name = name
    · subst hname
      rw [Grouping.node_withSettings]
      exact ⟨settingsOf_property hnil (hmap hk) hs, (hg _).subs, (hg _).nodup⟩
    · rw [Grouping.withSettings, Tree.node_insert_of_ne _ hname]
      exact hg name
  | plain hk =>
    rw [node_insert_plain]
    split
    · exact .empty hnil
    · exact hg name

/-! ## Repeated headings -/

def Occupied (g : Grouping) (key : String) : Prop :=
  ∃ header, Header.parse ("[" ++ key ++ "]") = .ok header ∧ match header.subsection with
    | some sub => (g.tree.node header.name).hasSubsection sub = true
    | none => g.seen.contains header.name = true

theorem Added.occupied (hk : isHeading key = true) (h : Added g key value out) :
    ¬ Occupied g key ∧ Occupied out key := by
  cases h with
  | subsection header sub settings _ hp hsub _ hn =>
    simp only [Occupied, hp, Except.ok.injEq, exists_eq_left', hsub]
    exact ⟨by simp [hn], by simp [Grouping.node_withSubsection, hasSubsection]⟩
  | own header settings _ hp hsub _ hn =>
    simp only [Occupied, hp, Except.ok.injEq, exists_eq_left', hsub]
    exact ⟨by simp only [hn]; simp, by simp [Grouping.withSettings]⟩
  | plain hplain =>
    rw [hk] at hplain
    cases hplain

theorem Added.hasSubsection (h : Added g key value out) {name sub : String} (hname : isHeading name = true)
    (hs : (g.tree.node name).hasSubsection sub = true) : (out.tree.node name).hasSubsection sub = true := by
  cases h with
  | subsection header =>
    by_cases hn : header.name = name
    · subst hn
      rw [Grouping.node_withSubsection, Section.hasSubsection, List.any_append]
      exact Bool.or_eq_true_iff.mpr (.inl hs)
    · rwa [Grouping.withSubsection, Tree.node_insert_of_ne _ hn]
  | own header =>
    by_cases hn : header.name = name
    · subst hn
      rwa [Grouping.node_withSettings]
    · rwa [Grouping.withSettings, Tree.node_insert_of_ne _ hn]
  | plain hplain =>
    rw [node_insert_plain, if_neg]
    · exact hs
    · rintro rfl
      rw [hname] at hplain
      cases hplain

theorem Added.seen (h : Added g key value out) {name : String} (hs : g.seen.contains name = true) :
    out.seen.contains name = true := by
  cases h with
  | subsection => exact hs
  | own => rw [Grouping.withSettings, List.contains_cons, hs, Bool.or_true]
  | plain => exact hs

theorem Occupied.added {other : String} (hm : Occupied g other) (ho : isHeading other = true)
    (h : Added g key value out) : Occupied out other := by
  obtain ⟨header, hp, hm⟩ := hm
  refine ⟨header, hp, ?_⟩
  split at hm
  · exact h.hasSubsection (isHeading_name ho hp) hm
  · exact h.seen hm

/-! ## Other sections -/

theorem Added.find?_plain (h : Added g key value out) {name : String} {contents : Value}
    (hf : out.tree.find? (.text name) = some (.plain contents)) :
    g.tree.find? (.text name) = some (.plain contents) ∨ name = key ∧ contents = value := by
  cases h with
  | subsection =>
    rw [Grouping.withSubsection, Tree.find?_insert] at hf
    split at hf
    · cases hf
    · exact .inl hf
  | own =>
    rw [Grouping.withSettings, Tree.find?_insert] at hf
    split at hf
    · cases hf
    · exact .inl hf
  | plain =>
    rw [Tree.find?_insert] at hf
    split at hf
    · next hn =>
      cases hf
      exact .inr ⟨hn.symm, rfl⟩
    · exact .inl hf

variable {document : Document} {tree : Section.Tree}

theorem mem_of_find?_foldlM (h : document.foldlM (Grouping.add isHeadingValue) {} = .ok g) {name : String}
    {contents : Value} (hf : g.tree.find? (.text name) = some (.plain contents)) : (.text name, contents) ∈ document := by
  induction document using List.reverseRecOn generalizing g with
  | nil =>
    cases h
    cases hf
  | append_singleton document e ih =>
    rw [List.foldlM_concat] at h
    obtain ⟨mid, hmid, hstep⟩ := Except.bind_eq_ok_iff.mp h
    rcases e with ⟨k, v⟩
    cases hkey : k.isText with
    | false =>
      rw [add_of_not_text hkey] at hstep
      split at hstep <;> cases hstep
      rw [Tree.find?_insert_of_not_text _ hkey] at hf
      exact List.mem_append_left _ (ih hmid hf)
    | true =>
      obtain ⟨key, rfl⟩ := Value.exists_text_of_isText hkey
      rcases (added_of_add hstep).find?_plain hf with hf | ⟨rfl, rfl⟩
      · exact List.mem_append_left _ (ih hmid hf)
      · exact List.mem_append_right _ (List.mem_singleton_self _)

/-- What a grouped document holds under a name that is no heading it holds itself. -/
theorem plainAt_of_coalesce (h : coalesce isHeadingValue document = .ok tree) (name : String) :
    plainAt tree name = .null ∨ (.text name, plainAt tree name) ∈ document := by
  obtain ⟨g, hg, rfl⟩ := Except.map_eq_ok_iff.mp h
  rw [plainAt]
  split
  · next contents hf => exact .inr (mem_of_find?_foldlM hg hf)
  · exact .inl rfl

/-! ## Documents -/

def HeadingsOnce (document : Document) : Prop :=
  document.Pairwise fun e f => ∀ key, isHeading key = true → e.1 = .text key → f.1 ≠ .text key

structure Tracked (P : Settings → Prop) (document : Document) (g : Grouping) : Prop where
  node : ∀ name, Traced P (g.tree.node name)
  plain : ∀ name contents, g.tree.find? (.text name) = some (.plain contents) → (.text name, contents) ∈ document
  occupied : ∀ key, isHeading key = true → .text key ∈ Settings.keys document → Occupied g key
  once : HeadingsOnce document

theorem Tracked.added (ht : Tracked P document g) (hnil : P [])
    (hmap : isHeading key = true → ∀ entries, value = .map entries → P entries) (h : Added g key value out) :
    Tracked P (document ++ [(.text key, value)]) out where
  node := h.traced hnil hmap ht.node
  plain := by
    intro name contents hf
    rcases h.find?_plain hf with hf | ⟨rfl, rfl⟩
    · exact List.mem_append_left _ (ht.plain name contents hf)
    · simp
  occupied := by
    intro other ho hm
    rw [Settings.keys, List.map_append, List.mem_append] at hm
    rcases hm with hm | hm
    · exact (ht.occupied other ho hm).added ho h
    · cases List.mem_singleton.mp hm
      exact (h.occupied ho).2
  once := by
    refine List.pairwise_append.mpr ⟨ht.once, List.pairwise_singleton _ _, fun e he f hf other ho hek hfk => ?_⟩
    cases List.mem_singleton.mp hf
    cases hfk
    exact (h.occupied ho).1 (ht.occupied key ho (hek ▸ List.mem_map_of_mem he))

theorem tracked_of_foldlM (htext : Settings.TextKeys document) (hnil : P [])
    (hmap : ∀ key entries, isHeading key = true → (.text key, .map entries) ∈ document → P entries)
    (h : document.foldlM (Grouping.add isHeadingValue) {} = .ok g) : Tracked P document g := by
  induction document using List.reverseRecOn generalizing g with
  | nil =>
    cases h
    exact ⟨fun _ => .empty hnil, nofun, fun _ _ hm => absurd hm List.not_mem_nil, .nil⟩
  | append_singleton document e ih =>
    rw [List.foldlM_concat] at h
    obtain ⟨mid, hmid, hstep⟩ := Except.bind_eq_ok_iff.mp h
    rcases e with ⟨k, v⟩
    obtain ⟨key, rfl⟩ := htext k (by simp [Settings.keys])
    have ht := ih (fun k hk => htext k (by rw [Settings.keys, List.map_append]; exact List.mem_append_left _ hk))
      (fun key entries hk hm => hmap key entries hk (List.mem_append_left _ hm)) hmid
    refine ht.added hnil (fun hk entries hv => hmap key entries hk ?_) (added_of_add hstep)
    simp [hv]

/-- What a document that can be grouped holds. -/
theorem of_coalesce (htext : Settings.TextKeys document) (hnil : P [])
    (hmap : ∀ key entries, isHeading key = true → (.text key, .map entries) ∈ document → P entries)
    (h : coalesce isHeadingValue document = .ok tree) :
    Traced P (tree.node "database") ∧ HeadingsOnce document ∧
      ∀ name, plainAt tree name = .null ∨ (.text name, plainAt tree name) ∈ document := by
  have hplain := plainAt_of_coalesce h
  obtain ⟨g, hg, rfl⟩ := Except.map_eq_ok_iff.mp h
  have ht := tracked_of_foldlM htext hnil hmap hg
  exact ⟨ht.node _, ht.once, hplain⟩

/-! ## Parts -/

theorem isHeading_entry {parts : List Part} (h : Regular parts) {part : Part} (hm : part ∈ parts) :
    ∃ key, part.entry.1 = .text key ∧ (isHeading key = true ∨ ∃ contents, part = .plain key contents ∧ isHeading key = false) := by
  cases part with
  | own settings => exact ⟨"database", rfl, .inl (by decide)⟩
  | sub name settings =>
    refine ⟨label (some name), rfl, .inl (isHeading_label (h.clean (name, settings) ?_))⟩
    exact List.mem_filterMap.mpr ⟨_, hm, rfl⟩
  | plain name contents => exact ⟨name, rfl, .inr ⟨contents, rfl, h.plain name contents hm⟩⟩

theorem textKeys_entries {parts : List Part} (h : Regular parts) : Settings.TextKeys (parts.map Part.entry) := by
  intro k hk
  obtain ⟨_, he, rfl⟩ := List.mem_map.mp hk
  obtain ⟨part, hp, rfl⟩ := List.mem_map.mp he
  obtain ⟨key, hkey, _⟩ := isHeading_entry h hp
  exact ⟨key, hkey⟩

/-- Regular parts make up a document that repeats no name. -/
theorem nodup_keys_entries {parts : List Part} (h : Regular parts) : (Settings.keys (parts.map Part.entry)).Nodup := by
  obtain ⟨tree, htree, _⟩ := exists_coalesce_parts h
  have honce := (@of_coalesce (fun _ => True) _ tree (textKeys_entries h) trivial (fun _ _ _ _ => trivial) htree).2.1
  have hplains := h.plains
  rw [Settings.keys, List.Nodup, List.pairwise_map, List.pairwise_filterMap] at hplains
  rw [HeadingsOnce, List.pairwise_map] at honce
  rw [Settings.keys, List.Nodup, List.pairwise_map, List.pairwise_map]
  refine (honce.and hplains).imp_of_mem fun {a b} ha hb hab heq => ?_
  obtain ⟨key, hkey, hhead | ⟨contents, rfl, hplain⟩⟩ := isHeading_entry h ha
  · exact hab.1 key hhead hkey (heq ▸ hkey)
  · obtain ⟨other, hother, hhead | ⟨_, rfl, _⟩⟩ := isHeading_entry h hb
    · cases hkey.symm.trans (heq.trans hother)
      rw [hplain] at hhead
      cases hhead
    · exact hab.2 _ rfl _ rfl heq

end Stanza.Database
