import Stanza.Log.Registry
import Stanza.Proofs.Logged

/-! # Setups one after the other

A setup undoes the one before it, so at most one is in force at a time. What a handle keeps of its logger is therefore
what the logger was before any setup, and undoing the handle brings that back: whichever handles are undone, in whatever
order, once or twice, and also where a setup is refused.
-/
namespace Stanza.Log

namespace Setup

def sinks (s : Setup) (i : Nat) : List Sink := .stream i :: ((s.file?.map Path.ofString).map (Sink.file i)).toList

def read (s : Setup) : Except Fault (Level × String × Format) := do
  let level ← (Level.ofValue s.level).mapError Fault.rejected
  let name ← (Registry.loggerName s.logger).mapError Fault.rejected
  return (level, name, ← Format.ofValue s.format)

theorem read_eq_ok_iff {s : Setup} {level : Level} {name : String} {format : Format} :
    s.read = .ok (level, name, format) ↔
      Level.ofValue s.level = .ok level ∧ Registry.loggerName s.logger = .ok name ∧
        Format.ofValue s.format = .ok format := by
  simp only [read, Except.bind_eq_ok_iff, Except.mapError_eq_ok_iff]
  constructor
  · rintro ⟨_, hl, _, hn, _, hf, h⟩
    cases h
    exact ⟨hl, hn, hf⟩
  · rintro ⟨hl, hn, hf⟩
    exact ⟨_, hl, _, hn, _, hf, rfl⟩

end Setup

namespace Registry

inductive Command where
  | setUp (s : Setup)
  /-- A setup that comes to nothing since its log file cannot be opened. -/
  | giveUp
  | close (which : Option Nat)
  | shutDown (i : Nat)

/-- A setup that comes to nothing has undone the active one all the same. -/
def giveUp (r : Registry) : Registry := { r.close none with active := none }

def execute (r : Registry) : Command → Registry
  | .setUp s => (r.setUp s).1
  | .giveUp => r.giveUp
  | .close which => r.close which
  | .shutDown i => r.shutDown i

def run (r : Registry) (commands : List Command) : Registry := commands.foldl execute r

def made? (r : Registry) : Command → Option Setup
  | .setUp s => (r.setUp s).2.toOption.map fun _ => s
  | _ => none

def made (r : Registry) : List Command → List Setup
  | [] => []
  | c :: rest => (r.made? c).toList ++ made (r.execute c) rest

structure Fresh (r : Registry) : Prop where
  handles : r.handles = []
  handlers : ∀ name, (r.logger name).handlers = []

/-- The logger of a handle is as its setup says. -/
structure InForce (r : Registry) (i : Nat) (handle : Handle) (s : Setup) : Prop where
  name : loggerName s.logger = .ok handle.logger
  level : Level.ofValue s.level = .ok (r.logger handle.logger).level
  handsOn : (r.logger handle.logger).handsOn = false
  sinks : (r.logger handle.logger).handlers.map Handler.sink = s.sinks i
  handlers : ∀ h ∈ (r.logger handle.logger).handlers,
    h.level = (r.logger handle.logger).level ∧ Format.ofValue s.format = .ok h.format ∧ h.redactor = s.redactor

def Bare (r : Registry) : Prop := ∀ name, (r.logger name).handlers = []

def Live (r : Registry) (i : Nat) (handle : Handle) : Prop := r.handles[i]? = some handle ∧ handle.isDown = false

variable {start r : Registry} {setups : List Setup} {handle : Handle} {i : Nat}

/-! ## Loggers after a change -/

theorem lookup_filter_of_ne {α : Type} {name other : String} (h : name ≠ other) (xs : List (String × α)) :
    (xs.filter (·.1 != name)).lookup other = xs.lookup other := by
  induction xs with
  | nil => rfl
  | cons x xs ih =>
    by_cases hx : x.1 = name
    · rw [List.filter_cons_of_neg (by simp [hx]), ih, List.lookup_cons, beq_false_of_ne (hx ▸ h.symm)]
    · rw [List.filter_cons_of_pos (by simp [hx]), List.lookup_cons, List.lookup_cons, ih]

theorem logger_setLogger (r : Registry) (name other : String) (l : Logger) :
    (r.setLogger name l).logger other = if nameOf name = nameOf other then l else r.logger other := by
  rw [logger, logger, setLogger, List.lookup_cons]
  by_cases h : nameOf name = nameOf other
  · simp [h]
  · rw [if_neg h, beq_false_of_ne (Ne.symm h), lookup_filter_of_ne h]

def released (r : Registry) (i : Nat) (handle : Handle) : Logger where
  level := handle.previousLevel
  handsOn := handle.previouslyHandsOn
  handlers := (r.logger handle.logger).handlers.filter fun h => !Handler.belongsTo h i

theorem shutDown_of_live (h : r.Live i handle) :
    r.shutDown i =
      (r.setLogger handle.logger (r.released i handle)).changeHandle i fun h => { h with isDown := true } := by
  rw [shutDown, h.1]
  simp [h.2, released]

theorem shutDown_of_not_live (h : ∀ handle, ¬ r.Live i handle) : r.shutDown i = r := by
  rw [shutDown]
  cases hi : r.handles[i]? with
  | none => rfl
  | some handle =>
    cases hd : handle.isDown with
    | true => simp [hd]
    | false => exact absurd ⟨hi, hd⟩ (h handle)

/-! ## What a setup does -/

def opened (r : Registry) (s : Setup) (level : Level) (name : String) (format : Format) : Registry :=
  let i := r.handles.length
  let handle : Handle :=
    { logger := name, previousLevel := (r.logger name).level, previouslyHandsOn := (r.logger name).handsOn }
  let files := ((s.file?.map Path.ofString).map fun p => r.files.append p []).getD r.files
  ({ r with files, handles := r.handles ++ [handle], active := some i }).setLogger name
    { level, handsOn := false,
      handlers := (s.sinks i).map fun sink => { sink, level, format, redactor := s.redactor } }

theorem setUp_eq (r : Registry) (s : Setup) : r.setUp s =
    match s.read with
    | .error e => (r.giveUp, .error e)
    | .ok (level, name, format) => (r.giveUp.opened s level name format, .ok ()) := by
  change (match s.read with | .error e => _ | .ok (level, name, format) => _) = _
  cases s.read <;> rfl

/-! ## The handle in force -/

/-- At most one handle is in force, the active one, and it has kept what its logger was at the start. All other loggers
are as they were then. -/
structure Orderly (start : Registry) (setups : List Setup) (r : Registry) : Prop where
  count : r.handles.length = setups.length
  alone : ∀ i handle, r.Live i handle → r.active = some i
  inForce : ∀ i handle, r.Live i handle → ∃ s, setups[i]? = some s ∧ InForce r i handle s
  kept : ∀ i handle, r.Live i handle → handle.previousLevel = (start.logger handle.logger).level ∧
    handle.previouslyHandsOn = (start.logger handle.logger).handsOn
  others : ∀ name, (∀ i handle, r.Live i handle → nameOf handle.logger ≠ nameOf name) →
    r.logger name = start.logger name

theorem logger_congr {name other : String} (h : nameOf name = nameOf other) (r : Registry) :
    r.logger name = r.logger other := by
  rw [logger, logger, h]

/-- Undoing a handle leaves the other ones. -/
theorem live_shutDown {j : Nat} : (r.shutDown i).Live j handle ↔ r.Live j handle ∧ j ≠ i := by
  by_cases h : ∃ handle, r.Live i handle
  · obtain ⟨old, hl⟩ := h
    rw [shutDown_of_live hl]
    change ((r.handles.modify i _)[j]? = some handle ∧ _) ↔ _
    by_cases hj : i = j
    · subst hj
      rw [List.getElem?_modify_eq, hl.1]
      refine ⟨fun hdown => ?_, fun hne => absurd rfl hne.2⟩
      rw [← Option.some.inj hdown.1] at hdown
      cases hdown.2
    · rw [List.getElem?_modify_ne _ _ hj]
      exact ⟨fun hlive => ⟨hlive, Ne.symm hj⟩, And.left⟩
  · rw [shutDown_of_not_live fun handle hl => h ⟨handle, hl⟩]
    exact ⟨fun hj => ⟨hj, fun he => h ⟨handle, he ▸ hj⟩⟩, And.left⟩

theorem Orderly.logger_eq (h : Orderly start setups r) (hn : ∀ i handle, ¬ r.Live i handle) (name : String) :
    r.logger name = start.logger name :=
  h.others name fun i handle hl => absurd hl (hn i handle)

theorem Orderly.released_eq (h : Orderly start setups r) (hs : start.Bare)
    (hl : r.Live i handle) : r.released i handle = start.logger handle.logger := by
  obtain ⟨hlevel, hhandsOn⟩ := h.kept i handle hl
  obtain ⟨s, _, hf⟩ := h.inForce i handle hl
  have hown : ∀ k ∈ (r.logger handle.logger).handlers, Handler.belongsTo k i = true := by
    intro k hk
    have hsink : k.sink ∈ s.sinks i := hf.sinks ▸ List.mem_map_of_mem hk
    rw [Setup.sinks, List.mem_cons, Option.mem_toList, Option.map_eq_some_iff] at hsink
    rcases hsink with hsink | ⟨path, _, hsink⟩
    · simp [Handler.belongsTo, hsink]
    · simp [Handler.belongsTo, ← hsink]
  have hnone : (r.logger handle.logger).handlers.filter (fun k => !Handler.belongsTo k i) = [] :=
    List.filter_eq_nil_iff.mpr fun k hk => by simp [hown k hk]
  rw [released, hnone, hlevel, hhandsOn, ← hs handle.logger]

/-- Nothing is in force once the active handle is undone. -/
theorem Orderly.not_live_shutDown (h : Orderly start setups r) {j : Nat} (hl : r.Live i handle) (other : Handle) :
    ¬ (r.shutDown i).Live j other := by
  intro hj
  obtain ⟨hj, hne⟩ := live_shutDown.mp hj
  exact hne (Option.some.inj ((h.alone j other hj).symm.trans (h.alone i handle hl)))

theorem Orderly.of_still (hc : r.handles.length = setups.length) (hn : ∀ i handle, ¬ r.Live i handle)
    (ho : ∀ name, r.logger name = start.logger name) : Orderly start setups r where
  count := hc
  alone := fun i handle hl => absurd hl (hn i handle)
  inForce := fun i handle hl => absurd hl (hn i handle)
  kept := fun i handle hl => absurd hl (hn i handle)
  others := fun name _ => ho name

theorem Orderly.shutDown (h : Orderly start setups r) (hs : start.Bare) (i : Nat) :
    Orderly start setups (r.shutDown i) := by
  by_cases hl : ∃ handle, r.Live i handle
  · obtain ⟨handle, hl⟩ := hl
    refine .of_still ?_ (fun _ other => h.not_live_shutDown hl other) fun name => ?_
    · rw [shutDown_of_live hl]
      exact (List.length_modify ..).trans h.count
    · rw [shutDown_of_live hl]
      change (r.setLogger handle.logger (r.released i handle)).logger name = _
      rw [logger_setLogger, h.released_eq hs hl]
      split
      · next hn => rw [logger_congr hn]
      · next hn =>
        refine h.others name fun j other hj => ?_
        have hij : j = i := Option.some.inj ((h.alone j other hj).symm.trans (h.alone i handle hl))
        subst hij
        rwa [← Option.some.inj (hl.1.symm.trans hj.1)]
  · rwa [shutDown_of_not_live fun handle hlive => hl ⟨handle, hlive⟩]

/-! ## Every command -/

/-- With nothing in force it does not matter which handle is called active. -/
theorem Orderly.inactive (h : Orderly start setups r) (hn : ∀ i handle, ¬ r.Live i handle) :
    Orderly start setups { r with active := none } :=
  .of_still h.count hn (h.logger_eq hn)

/-- The handle that is closed is not live any more, whether or not it was the active one. -/
theorem Orderly.close (h : Orderly start setups r) (hs : start.Bare) (which : Option Nat) :
    Orderly start setups (r.close which) := by
  rw [Registry.close]
  cases which.or r.active with
  | none => exact h
  | some i =>
    have hdown := h.shutDown hs i
    dsimp only
    split
    · next hi =>
      refine hdown.inactive fun j handle hj => ?_
      have hij : i = j := Option.some.inj (hi.symm.trans (hdown.alone j handle hj))
      exact (live_shutDown.mp hj).2 hij.symm
    · exact hdown

/-- No handle survives a setup, whatever becomes of the setup. -/
theorem Orderly.not_live_giveUp (h : Orderly start setups r) (i : Nat) (handle : Handle) :
    ¬ r.giveUp.Live i handle := by
  intro hl
  rw [giveUp, Registry.close, Option.none_or] at hl
  cases ha : r.active with
  | none =>
    rw [ha] at hl
    have hactive := h.alone i handle hl
    rw [ha] at hactive
    cases hactive
  | some j =>
    rw [ha] at hl
    have hlive : (r.shutDown j).Live i handle := by
      dsimp only at hl
      split at hl <;> exact hl
    obtain ⟨hlive, hne⟩ := live_shutDown.mp hlive
    exact hne (Option.some.inj ((h.alone i handle hlive).symm.trans ha))

theorem Orderly.giveUp (h : Orderly start setups r) (hs : start.Bare) :
    Orderly start setups r.giveUp :=
  (h.close hs none).inactive h.not_live_giveUp

/-- The only live handle is the new one. -/
theorem live_opened (hn : ∀ i handle, ¬ r.Live i handle) {s : Setup} {level : Level} {name : String}
    {format : Format} : (r.opened s level name format).Live i handle ↔ i = r.handles.length ∧ handle =
      { logger := name, previousLevel := (r.logger name).level, previouslyHandsOn := (r.logger name).handsOn } := by
  change ((r.handles ++ [_])[i]? = some handle ∧ _) ↔ _
  by_cases hi : i = r.handles.length
  · subst hi
    rw [List.getElem?_concat_length]
    constructor
    · rintro ⟨h, -⟩
      exact ⟨rfl, (Option.some.inj h).symm⟩
    · rintro ⟨-, rfl⟩
      exact ⟨rfl, rfl⟩
  · refine ⟨fun hl => absurd ?_ (hn i handle), fun hl => absurd hl.1 hi⟩
    obtain ⟨hlt, _⟩ := List.getElem?_eq_some_iff.mp hl.1
    rw [List.length_append, List.length_singleton] at hlt
    rwa [List.getElem?_append_left (by omega)] at hl

/-- After all others have been undone a new handle is in force. -/
theorem Orderly.opened (h : Orderly start setups r) (hn : ∀ i handle, ¬ r.Live i handle) {s : Setup} {level : Level}
    {name : String} {format : Format} (hr : s.read = .ok (level, name, format)) :
    Orderly start (setups ++ [s]) (r.opened s level name format) := by
  obtain ⟨hlevel, hname, hformat⟩ := Setup.read_eq_ok_iff.mp hr
  have hlogger : ∀ other, (r.opened s level name format).logger other = if nameOf name = nameOf other then
      { level, handsOn := false,
        handlers := (s.sinks r.handles.length).map fun sink => { sink, level, format, redactor := s.redactor } }
      else r.logger other := fun other => logger_setLogger _ name other _
  refine ⟨?_, fun i handle hl => ?_, fun i handle hl => ?_, fun i handle hl => ?_, fun other ho => ?_⟩
  · change (r.handles ++ [_]).length = _
    simp [h.count]
  · rw [((live_opened hn).mp hl).1]
    rfl
  · obtain ⟨rfl, rfl⟩ := (live_opened hn).mp hl
    refine ⟨s, by rw [h.count, List.getElem?_concat_length], ?_⟩
    have hnew := hlogger name
    rw [if_pos rfl] at hnew
    constructor
    · exact hname
    · rw [hnew]
      exact hlevel
    · rw [hnew]
    · rw [hnew, List.map_map]
      exact List.map_id _
    · rw [hnew]
      intro k hk
      obtain ⟨sink, _, rfl⟩ := List.mem_map.mp hk
      exact ⟨rfl, hformat, rfl⟩
  · obtain ⟨rfl, rfl⟩ := (live_opened hn).mp hl
    rw [← h.logger_eq hn name]
    exact ⟨rfl, rfl⟩
  · rw [hlogger, if_neg (ho _ _ ((live_opened hn).mpr ⟨rfl, rfl⟩)), h.logger_eq hn]

/-- Every command leaves things in order. -/
theorem Orderly.execute (h : Orderly start setups r) (hs : start.Bare) (c : Command) :
    Orderly start (setups ++ (r.made? c).toList) (r.execute c) := by
  have hnone : ∀ {out}, Orderly start setups out → Orderly start (setups ++ []) out := fun ho => by
    rwa [List.append_nil]
  cases c with
  | setUp s =>
    rw [Registry.execute, made?, setUp_eq]
    cases hr : s.read with
    | error e => exact hnone (h.giveUp hs)
    | ok asked => exact (h.giveUp hs).opened h.not_live_giveUp hr
  | giveUp => exact hnone (h.giveUp hs)
  | close which => exact hnone (h.close hs which)
  | shutDown i => exact hnone (h.shutDown hs i)

/-! ## Whole sequences of commands -/

theorem Orderly.run (h : Orderly start setups r) (hs : start.Bare) (commands : List Command) :
    Orderly start (setups ++ r.made commands) (r.run commands) := by
  induction commands generalizing setups r with
  | nil => rwa [made, List.append_nil]
  | cons c rest ih =>
    rw [made, ← List.append_assoc]
    exact ih (h.execute hs c)

theorem Fresh.orderly (h : Fresh start) : Orderly start [] start := by
  refine .of_still (by rw [h.handles]; rfl) (fun i handle hl => ?_) fun _ => rfl
  rw [Live, h.handles] at hl
  cases hl.1

/-- Whatever setups come about, are refused, are closed or are shut down, in any order: at most one handle is live at a
time, the active one. Its logger is as its setup says, and every other logger is as it was at the start. A setup of which
level, logger and format can be read has a live handle afterwards. -/
theorem run_inForce (h : Fresh start) (commands : List Command) :
    (start.run commands).handles.length = (start.made commands).length ∧
    (∀ i handle, (start.run commands).Live i handle → (start.run commands).active = some i ∧
      ∃ s, (start.made commands)[i]? = some s ∧ InForce (start.run commands) i handle s) ∧
    (∀ name, (∀ i handle, (start.run commands).Live i handle → nameOf handle.logger ≠ nameOf name) →
      (start.run commands).logger name = start.logger name ∧ ((start.run commands).logger name).handlers = []) ∧
    ∀ s level name format, Level.ofValue s.level = .ok level → loggerName s.logger = .ok name →
      Format.ofValue s.format = .ok format →
      ∃ handle, handle.logger = name ∧ ((start.run commands).execute (.setUp s)).Live (start.made commands).length handle := by
  have ho : Orderly start (start.made commands) (start.run commands) := h.orderly.run h.handlers commands
  refine ⟨ho.count, fun i handle hl => ⟨ho.alone i handle hl, ho.inForce i handle hl⟩, fun name hn => ?_, ?_⟩
  · have hsame := ho.others name hn
    exact ⟨hsame, by rw [hsame, h.handlers name]⟩
  · intro s level name format hlevel hname hformat
    have hread := Setup.read_eq_ok_iff.mpr ⟨hlevel, hname, hformat⟩
    rw [Registry.execute, setUp_eq, hread, ← (ho.giveUp h.handlers).count]
    exact ⟨_, rfl, (live_opened ho.not_live_giveUp).mpr ⟨rfl, rfl⟩⟩

/-- The second setup is refused and yet undoes the first. The third is in force, also after the first handle is shut down
again, and its handle is the second one. -/
theorem run_inForce_refused : ∃ r handle,
    run { files := { home := [] }, loggers := [("app", { level := .number 10 })] }
      [.setUp { logger := .text "app" }, .setUp { level := .null },
        .setUp { logger := .text " app.db", level := .text "INFO", file? := some "/a.log" }, .shutDown 0] = r ∧
    r.Live 1 handle ∧ r.active = some 1 ∧
    InForce r 1 handle { logger := .text " app.db", level := .text "INFO", file? := some "/a.log" } ∧
    r.logger "app" = { level := .number 10 } := by
  let start : Registry := { files := { home := [] }, loggers := [("app", { level := .number 10 })] }
  let commands : List Command := [.setUp { logger := .text "app" }, .setUp { level := .null },
    .setUp { logger := .text " app.db", level := .text "INFO", file? := some "/a.log" }, .shutDown 0]
  have hfresh : Fresh start := by
    refine ⟨rfl, fun name => ?_⟩
    rw [logger, List.lookup_cons]
    cases nameOf name == "app" with
    | true => rfl
    | false =>
      rw [List.lookup_nil, Option.getD_none]
      split <;> rfl
  obtain ⟨_, hlive, hothers, _⟩ := run_inForce hfresh commands
  have hmade : (start.made commands)[1]? = some { logger := .text " app.db", level := .text "INFO", file? := some "/a.log" } :=
    rfl
  have hl : (start.run commands).Live 1 { logger := "app.db", previousLevel := .unset, previouslyHandsOn := true } :=
    ⟨rfl, rfl⟩
  obtain ⟨ha, s, hs, hf⟩ := hlive 1 _ hl
  cases hmade.symm.trans hs
  refine ⟨_, _, rfl, hl, ha, hf, (hothers "app" fun i handle hi => ?_).1⟩
  have hone : i = 1 := Option.some.inj ((hlive i handle hi).1.symm.trans ha)
  subst hone
  rw [← Option.some.inj (hl.1.symm.trans hi.1)]
  decide

end Registry

end Stanza.Log
