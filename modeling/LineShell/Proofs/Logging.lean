import LineShell.Logging
import Mathlib.Data.List.Induction

/-! # Logging over a life — the level on record and the sink

    Logging is configured again and again, each time for the level of a
    name.  The level on record is always the last one that there was a
    level for.  The sink is another matter: a name that there is no level
    for closes it and leaves the record, and a request for the level on
    record changes nothing.  So the sink is lost from such a failure until
    another level is asked for (`Logging.Lost`), and no record is written
    although requests succeed (`Logging.sink_lost`).  In every other state
    the sink is that of the level on record (`Logging.stands_after`). -/

namespace LineShell

/-! ## Levels by name -/

namespace Level

theorem ofName?_name (level : Level) :
    Level.ofName? level.name = some level := by
  cases level <;> decide

theorem ofName?_eq_some {name : String} {level : Level} :
    Level.ofName? name = some level ↔ level.name = name := by
  constructor
  · intro h
    rw [ofName?] at h
    have hname := List.find?_some h
    exact eq_of_beq hname
  · rintro rfl
    exact ofName?_name level

theorem name_injective {level other : Level} (h : level.name = other.name) :
    level = other :=
  Option.some.inj ((ofName?_eq_some.mpr h).symm.trans (ofName?_name other))

end Level

namespace Logging

/-- A request to configure logging: the variables of the process at that
    time, and the level that is asked for. -/
structure LevelRequest where
  vars : List (String × String)
  level : Option String

namespace LevelRequest

/-- The name that is asked for. -/
def name (c : LevelRequest) : String :=
  resolve c.vars c.level

/-- The level of that name, if there is one. -/
def level? (c : LevelRequest) : Option Level :=
  Level.ofName? c.name

end LevelRequest

/-- Does what a request asks for: the state afterwards, and the fault if
    one came up. -/
def obey (l : Logging) (c : LevelRequest) : Logging × Option Fault :=
  l.configure c.vars c.level

/-- The state that requests leave, starting without configuration. -/
def after (calls : List LevelRequest) : Logging :=
  calls.foldl (fun l c => (l.obey c).1) unconfigured

/-- The last level that was asked for. -/
def lastLevel? (calls : List LevelRequest) : Option Level :=
  (calls.filterMap LevelRequest.level?).getLast?

/-- The sink is lost: a request failed, and since then no level was asked
    for but the one that was on record at the failure. -/
def Lost (calls : List LevelRequest) : Prop :=
  ∃ before failed later, calls = before ++ failed :: later ∧
    failed.level? = none ∧
    ∀ c ∈ later, ∀ level, c.level? = some level →
      lastLevel? before = some level

/-! ## One request -/

section Obey

variable {l : Logging} {c : LevelRequest} {level : Level}

/-- A request for the level on record changes nothing. -/
theorem obey_recorded (h : l.configured = some c.name) :
    l.obey c = (l, none) := by
  have hsame : (l.configured == some (resolve c.vars c.level)) = true :=
    beq_iff_eq.mpr h
  rw [obey, configure, if_pos hsame]

/-- A request for another level puts it on record and opens its sink. -/
theorem obey_level (hc : c.level? = some level)
    (h : l.configured ≠ some c.name) :
    l.obey c = (⟨some level.name, some level⟩, none) := by
  have hother : ¬ (l.configured == some (resolve c.vars c.level)) = true :=
    fun e => h (eq_of_beq e)
  have hname : level.name = c.name := Level.ofName?_eq_some.mp hc
  rw [LevelRequest.level?, LevelRequest.name] at hc
  rw [obey, configure, if_neg hother, hc, hname]
  rfl

/-- A request for no level fails: it closes the sink and leaves the
    record. -/
theorem obey_failed (hc : c.level? = none)
    (h : l.configured ≠ some c.name) :
    l.obey c =
      ({ l with sink := none },
        some (.refused (.unknownLevel c.name))) := by
  have hother : ¬ (l.configured == some (resolve c.vars c.level)) = true :=
    fun e => h (eq_of_beq e)
  rw [LevelRequest.level?, LevelRequest.name] at hc
  rw [obey, configure, if_neg hother, hc]
  rfl

end Obey

/-! ## What a further request does to the history -/

section History

variable {calls before later : List LevelRequest} {c failed : LevelRequest}

theorem lastLevel?_append (before later : List LevelRequest) :
    lastLevel? (before ++ later) =
      (lastLevel? later).or (lastLevel? before) := by
  rw [lastLevel?, List.filterMap_append, List.getLast?_append]
  rfl

theorem lastLevel?_snoc (calls : List LevelRequest) (c : LevelRequest) :
    lastLevel? (calls ++ [c]) = c.level?.or (lastLevel? calls) := by
  rw [lastLevel?_append]
  congr 1
  rw [lastLevel?, List.filterMap_cons]
  cases c.level? <;> rfl

/-- Where the sink is lost, the last level is the one that was on record
    at the failure. -/
theorem lastLevel?_lost (hfailed : failed.level? = none)
    (hlater : ∀ c ∈ later, ∀ level, c.level? = some level →
      lastLevel? before = some level) :
    lastLevel? (before ++ failed :: later) = lastLevel? before := by
  rw [lastLevel?_append, lastLevel?, List.filterMap_cons_none hfailed]
  cases hlast : (later.filterMap LevelRequest.level?).getLast? with
  | none => rfl
  | some level =>
      obtain ⟨c, hc, hlevel⟩ :=
        List.mem_filterMap.mp (List.mem_of_getLast? hlast)
      rw [hlater c hc level hlevel]
      rfl

theorem not_lost_nil : ¬ Lost [] := by
  rintro ⟨before, failed, later, h, _⟩
  exact List.append_ne_nil_of_right_ne_nil before
    (List.cons_ne_nil failed later) h.symm

/-- A further request leaves the sink lost if it fails, or if it was lost
    and the request is for the level on record. -/
theorem lost_snoc (calls : List LevelRequest) (c : LevelRequest) :
    Lost (calls ++ [c]) ↔
      c.level? = none ∨ Lost calls ∧ c.level? = lastLevel? calls := by
  constructor
  · rintro ⟨before, failed, later, heq, hfailed, hlater⟩
    -- the further request is the failure itself, or one of those after it
    rcases List.eq_nil_or_concat later with rfl | ⟨rest, d, rfl⟩
    · obtain ⟨-, hlast⟩ := List.append_inj' heq rfl
      cases hlast
      exact Or.inl hfailed
    · rw [List.concat_eq_append] at heq hlater
      rw [← List.cons_append, ← List.append_assoc] at heq
      obtain ⟨rfl, hlast⟩ := List.append_inj' heq rfl
      cases hlast
      have hrest : ∀ d ∈ rest, ∀ level, d.level? = some level →
          lastLevel? before = some level := by
        intro d hd
        exact hlater d (List.mem_append_left _ hd)
      cases hlevel : c.level? with
      | none => exact Or.inl rfl
      | some level =>
          refine Or.inr ⟨⟨before, failed, rest, rfl, hfailed, hrest⟩, ?_⟩
          rw [lastLevel?_lost hfailed hrest]
          exact (hlater c (List.mem_append_right _ List.mem_cons_self) level
            hlevel).symm
  · rintro (hc | ⟨⟨before, failed, later, rfl, hfailed, hlater⟩, hc⟩)
    · exact ⟨calls, c, [], rfl, hc, fun _ h => nomatch h⟩
    · rw [lastLevel?_lost hfailed hlater] at hc
      refine ⟨before, failed, later ++ [c], ?_, hfailed, ?_⟩
      · rw [List.append_assoc, List.cons_append]
      · intro d hd level hlevel
        rcases List.mem_append.mp hd with hd | hd
        · exact hlater d hd level hlevel
        · obtain rfl := List.mem_singleton.mp hd
          exact hc.symm.trans hlevel

end History

/-! ## All requests -/

/-- What holds of the state of logging after requests: the level on record
    is the last one, and its sink is open unless it was lost. -/
structure Stands (calls : List LevelRequest) (l : Logging) : Prop where
  recorded : l.configured = (lastLevel? calls).map Level.name
  opened : ¬ Lost calls → l.sink = lastLevel? calls
  closed : Lost calls → l.sink = none

namespace Stands

variable {calls : List LevelRequest} {l : Logging} {c : LevelRequest}

theorem unconfigured : Stands [] unconfigured where
  recorded := rfl
  opened _ := rfl
  closed h := absurd h not_lost_nil

/-- A name without a level is never on record. -/
theorem configured_ne (h : Stands calls l) (hc : c.level? = none) :
    l.configured ≠ some c.name := by
  rw [h.recorded]
  intro he
  obtain ⟨level, -, hname⟩ := Option.map_eq_some_iff.mp he
  have hlevel : c.level? = some level := Level.ofName?_eq_some.mpr hname
  rw [hc] at hlevel
  cases hlevel

/-- A level is on record just when it is the last one. -/
theorem configured_iff (h : Stands calls l) {level : Level}
    (hc : c.level? = some level) :
    l.configured = some c.name ↔ lastLevel? calls = some level := by
  have hname : level.name = c.name := Level.ofName?_eq_some.mp hc
  rw [h.recorded, Option.map_eq_some_iff, ← hname]
  constructor
  · rintro ⟨other, hlast, hother⟩
    rw [hlast, Level.name_injective hother]
  · intro hlast
    exact ⟨level, hlast, rfl⟩

/-- A request that fails. -/
theorem failed (h : Stands calls l) (hc : c.level? = none) :
    Stands (calls ++ [c]) { l with sink := none } where
  recorded := by
    rw [lastLevel?_snoc, hc]
    exact h.recorded
  opened hopen := absurd ((lost_snoc calls c).mpr (Or.inl hc)) hopen
  closed _ := rfl

/-- A request for the level on record. -/
theorem repeated (h : Stands calls l) {level : Level}
    (hc : c.level? = some level) (hlast : lastLevel? calls = some level) :
    Stands (calls ++ [c]) l := by
  have hsame : lastLevel? (calls ++ [c]) = lastLevel? calls := by
    rw [lastLevel?_snoc, hc, hlast]
    rfl
  have hlost : Lost (calls ++ [c]) ↔ Lost calls := by
    rw [lost_snoc, hc, hlast]
    simp
  exact ⟨hsame ▸ h.recorded, fun hopen => hsame ▸ h.opened (mt hlost.mpr hopen),
    fun hclosed => h.closed (hlost.mp hclosed)⟩

/-- A request for another level. -/
theorem changed {level : Level} (hc : c.level? = some level)
    (hlast : lastLevel? calls ≠ some level) :
    Stands (calls ++ [c]) ⟨some level.name, some level⟩ := by
  have hnew : lastLevel? (calls ++ [c]) = some level := by
    rw [lastLevel?_snoc, hc]
    rfl
  refine ⟨by rw [hnew]; rfl, fun _ => hnew.symm, fun hlost => ?_⟩
  rcases (lost_snoc calls c).mp hlost with hnone | ⟨-, hsame⟩
  · rw [hc] at hnone
    cases hnone
  · exact absurd (hsame.symm.trans hc) hlast

/-- What one request does, and that the state still stands. -/
theorem obey (h : Stands calls l) (c : LevelRequest) :
    Stands (calls ++ [c]) (l.obey c).1 := by
  cases hc : c.level? with
  | none =>
      rw [obey_failed hc (h.configured_ne hc)]
      exact h.failed hc
  | some level =>
      by_cases hlast : lastLevel? calls = some level
      · rw [obey_recorded ((h.configured_iff hc).mpr hlast)]
        exact h.repeated hc hlast
      · rw [obey_level hc fun e => hlast ((h.configured_iff hc).mp e)]
        exact changed hc hlast

end Stands

theorem after_snoc (calls : List LevelRequest) (c : LevelRequest) :
    after (calls ++ [c]) = ((after calls).obey c).1 := by
  rw [after, List.foldl_append]
  rfl

theorem after_stands (calls : List LevelRequest) :
    Stands calls (after calls) := by
  induction calls using List.reverseRecOn with
  | nil => exact .unconfigured
  | append_singleton calls c ih =>
      rw [after_snoc]
      exact ih.obey c

/-- **THE SINK OVER A LIFE**: after any requests the level on record is the
    last one that was asked for, and its sink is open unless it was lost
    by a failure.  A further request fails just when there is no level of
    its name, and then it leaves the record and closes the sink; a request
    that succeeds lets the records of its level and above through unless
    the sink stays lost, because a request failed and no level but the one
    on record was asked for since. -/
theorem stands_after (calls : List LevelRequest) (c : LevelRequest) :
    Stands calls (after calls) ∧
    match c.level? with
    | none =>
        (after calls).obey c = ({ after calls with sink := none },
          some (.refused (.unknownLevel c.name)))
    | some level =>
        ((after calls).obey c).2 = none ∧
        Stands (calls ++ [c]) ((after calls).obey c).1 ∧
        (Lost (calls ++ [c]) ↔
          Lost calls ∧ lastLevel? calls = some level) ∧
        ∀ event, ((after calls).obey c).1.reaches event = true ↔
          ¬ Lost (calls ++ [c]) ∧ level.weight ≤ event.level.weight := by
  have h := after_stands calls
  refine ⟨h, ?_⟩
  cases hc : c.level? with
  | none => exact obey_failed hc (h.configured_ne hc)
  | some level =>
      have hnext := h.obey c
      have hlast : lastLevel? (calls ++ [c]) = some level := by
        rw [lastLevel?_snoc, hc]
        rfl
      have hlost : Lost (calls ++ [c]) ↔
          Lost calls ∧ lastLevel? calls = some level := by
        rw [lost_snoc, hc]
        simp [eq_comm]
      refine ⟨?_, hnext, hlost, ?_⟩
      · by_cases hsame : lastLevel? calls = some level
        · rw [obey_recorded ((h.configured_iff hc).mpr hsame)]
        · rw [obey_level hc fun e => hsame ((h.configured_iff hc).mp e)]
      · intro event
        by_cases hgone : Lost (calls ++ [c])
        · rw [reaches, hnext.closed hgone]
          simp [hgone]
        · rw [reaches, hnext.opened hgone, hlast]
          simp [hgone]

/-- A level, a name that is none, and the level again: the second request
    fails and closes the sink of the level on record, the third succeeds,
    and no record of any weight is written. -/
theorem sink_lost :
    after [⟨[], some "warning"⟩] = ⟨some "WARNING", some .warning⟩ ∧
    (after [⟨[], some "warning"⟩]).obey ⟨[], some "nope"⟩ =
      (⟨some "WARNING", none⟩,
        some (.refused (.unknownLevel "NOPE"))) ∧
    ((after [⟨[], some "warning"⟩, ⟨[], some "nope"⟩]).obey
      ⟨[], some "warning"⟩).2 = none ∧
    ∀ event, (after [⟨[], some "warning"⟩, ⟨[], some "nope"⟩,
      ⟨[], some "warning"⟩]).reaches event = false := by
  have hend : after [⟨[], some "warning"⟩, ⟨[], some "nope"⟩,
      ⟨[], some "warning"⟩] = ⟨some "WARNING", none⟩ := by
    decide +kernel
  refine ⟨by decide +kernel, by decide +kernel, by decide +kernel, ?_⟩
  intro event
  rw [hend]
  rfl

end Logging

end LineShell
