import Mathlib.Tactic.Linarith
import Chip8.Proofs.Session.Rounds

/-!
# The pace of a session

How often frames begin when times are added up exactly, and what that means for the figures in the
titles.

* `Machine.Intact.completed_of_frame` says how many instructions a frame completes at most;
* `Log.starts` are the times at which the frames of a run begin, and `Paced` says of a log that they
  are spaced and that the figures in its titles are bounded;
* `InPace` is what a session keeps: the frames that it has counted fit between a time in the last
  second and the time at which the next frame may begin;
* `Course.paced` derives the pace of a run from that, and `figures_bounded_by_pace` states it for a
  run from its start.
-/

namespace Chip8

/-- A frame completes no more instructions than its length. -/
theorem Machine.Intact.completed_of_frame {m m' : Machine} (hm : m.Intact)
    (h : Machine.frame m = .ok () m') :
    m'.completed ≤ m.completed + m.cyclesPerFrame.toNat := by
  cases hf : m.fault with
  | some f =>
    rw [Machine.frame_of_halted hf] at h
    cases h
  | none =>
    obtain ⟨k, m₁, hk, hs, rfl⟩ : ∃ k m₁, k ≤ m.cyclesPerFrame.toNat ∧
        Machine.Stretch m k m₁ ∧ m' = m₁.tick := by
      cases (Machine.frame_eq_iff hm hf).1 h with
      | full hs => exact ⟨_, _, Nat.le_refl _, hs, rfl⟩
      | waiting hs hk => exact ⟨_, _, hk.2, hs, rfl⟩
    have hcompleted : m₁.completed = m.completed + k := Machine.completed_of_steps hm hs.steps
    show m₁.completed ≤ _
    omega

namespace Session

variable {host : Host} {clock : Nat → Rat} {time now : Rat} {s s' heard : Session} {c : Int}

/-! ### What a log tells of the pace -/

/-- When the frame begins that fails at the end of a run, if one does. -/
def Ending.starts : Ending → List Rat
  | .failed o _ => [o.time]
  | .exhausted | .quit _ => []

/-- The times at which the frames of a run begin, that of a frame that fails too. -/
def Log.starts (l : Log) : List Rat := l.rounds.map (fun r => r.opening.time) ++ l.ending.starts

theorem Log.starts_cons (r : Round) (l : Log) :
    (Log.cons r l).starts = r.opening.time :: l.starts := rfl

/-- The figures that an opening puts into the title are among its reports. -/
theorem Opening.mem_reports_of_title {o : Opening} {figures : Performance}
    (h : .title figures ∈ o.calls) : (o.time, figures) ∈ o.reports := by
  unfold Opening.calls at h
  unfold Opening.reports
  cases ho : o.report with
  | none => simp [ho] at h
  | some figures' => simpa [ho] using h

/-- All figures in titles are among the reports of a run. -/
theorem Log.exists_mem_reports_of_title {l : Log} {figures : Performance}
    (h : .title figures ∈ l.calls) : ∃ t, (t, figures) ∈ l.reports := by
  unfold Log.calls at h
  unfold Log.reports
  rcases List.mem_append.1 h with h | h
  · obtain ⟨r, hr, h⟩ := List.mem_flatMap.1 h
    have htitle : .title figures ∈ r.opening.calls := by simpa [Round.calls] using h
    exact ⟨r.opening.time, List.mem_append_left _
      (List.mem_flatMap.2 ⟨r, hr, Opening.mem_reports_of_title htitle⟩)⟩
  · cases hend : l.ending with
    | exhausted => simp [hend, Ending.calls] at h
    | quit o | failed o =>
      have htitle : .title figures ∈ o.calls := by simpa [hend, Ending.calls] using h
      exact ⟨o.time, List.mem_append_right _ (Opening.mem_reports_of_title htitle)⟩

/-- Frames of `c` instructions that begin at `first` at the earliest and are an interval apart, and
titles with no more than sixty of them. -/
structure Paced (c : Int) (first : Rat) (log : Log) : Prop where
  first_le : ∀ t ∈ log.starts, first ≤ t
  spaced : log.starts.Pairwise fun t t' => t + 1 / 60 ≤ t'
  figures : ∀ r ∈ log.reports, r.2.frames ≤ 60 ∧ r.2.instructions ≤ 60 * c

/-! ### What a session keeps -/

/-- When the next frame may begin, if no reading comes before `now`. -/
def earliest (now : Rat) (s : Session) : Rat := s.waitingUntil.getD now

/-- What a session keeps whose frames have `c` instructions, after a reading at `now`. -/
structure InPace (c : Int) (now : Rat) (s : Session) : Prop where
  intact : s.machine.Intact
  cycles : s.machine.cyclesPerFrame = c
  frames : s.pendingFrames ≤ 60
  /-- From some time that is at most a second before the next report, there is an interval for each
  frame that was counted. -/
  room : ∃ since : Rat, s.reportDue ≤ since + 1 ∧ since + s.pendingFrames / 60 ≤ s.earliest now
  instructions : s.pending.instructions ≤ c * s.pendingFrames

theorem InPace.start {m : Machine} (hm : m.Intact) : InPace m.cyclesPerFrame 0 (.start m) where
  intact := hm
  cycles := rfl
  frames := Nat.zero_le 60
  room := ⟨0, by norm_num [Session.start], by simp [Session.start, earliest]⟩
  instructions := by simp [Session.start, pending]

/-- Waiting only brings the next frame nearer. -/
theorem earliest_le_of_wait {frameEnd : Rat} (hwait : s.waitingUntil = some frameEnd) :
    s.earliest now ≤ (s.waited time frameEnd).earliest time := by
  unfold earliest waited
  rw [hwait]
  split_ifs with htime
  · exact le_rfl
  · exact not_lt.1 htime

theorem InPace.wait {frameEnd : Rat} (h : InPace c now s) (hwait : s.waitingUntil = some frameEnd) :
    InPace c time (s.waited time frameEnd) where
  intact := h.intact
  cycles := h.cycles
  frames := h.frames
  room := by
    obtain ⟨since, hdue, hroom⟩ := h.room
    exact ⟨since, hdue, hroom.trans (earliest_le_of_wait hwait)⟩
  instructions := h.instructions

/-- What a session in pace reports is bounded. -/
theorem InPace.figures (h : InPace c now s) (hc : 0 ≤ c) (time : Rat) :
    ∀ r ∈ (s.opening time).reports, r.2.frames ≤ 60 ∧ r.2.instructions ≤ 60 * c := by
  intro r hr
  obtain rfl : r = (time, s.pending) := by
    unfold opening Opening.reports at hr
    split_ifs at hr
    · exact List.mem_singleton.1 hr
    · cases hr
  refine ⟨h.frames, h.instructions.trans ?_⟩
  have hframes : (s.pendingFrames : Int) ≤ 60 := by exact_mod_cast h.frames
  calc c * s.pendingFrames ≤ c * 60 := mul_le_mul_of_nonneg_left hframes hc
    _ = 60 * c := mul_comm c 60

/-- In exact arithmetic, the next report is due within a second. -/
theorem nextReport_exact_le (h0 : 0 ≤ time) : Pacing.exact.nextReport time ≤ time + 1 := by
  have htruncate : Pacing.truncate time = ⌊time⌋ := if_neg (not_lt.2 h0)
  show (Pacing.truncate time : Rat) + 1 ≤ time + 1
  rw [htruncate]
  linarith [Int.floor_le time]

/-- Once the figures are brought up to date, there is room for one more frame. -/
theorem InPace.ask {quit : Bool} (h : InPace c now s) (hwait : s.waitingUntil = none)
    (hnow : now ≤ time) (h0 : 0 ≤ time)
    (hask : (s.opened .exact time).ask host = (heard, quit)) :
    InPace c time heard ∧ heard.waitingUntil = none ∧ heard.pendingFrames < 60 := by
  have hopened : (s.opened .exact time).machine.Intact := intact_opened .exact time h.intact
  have hearliest : ∀ now, s.earliest now = now := fun now => by
    rw [earliest, hwait, Option.getD_none]
  by_cases hdue : s.reportDue ≤ time
  · rw [opened, if_pos hdue] at hask hopened
    cases hask
    refine ⟨⟨{ hopened with }, h.cycles, Nat.zero_le 60, ⟨time, nextReport_exact_le h0, ?_⟩, ?_⟩,
      hwait, show 0 < 60 by decide⟩
    · show time + ((0 : Nat) : Rat) / 60 ≤ s.earliest time
      rw [hearliest]
      simp
    · show (s.machine.completed : Int) - s.machine.completed ≤ c * (0 : Nat)
      simp
  · rw [opened, if_neg hdue] at hask hopened
    cases hask
    obtain ⟨since, hsince, hroom⟩ := h.room
    rw [hearliest] at hroom
    have hlt : s.pendingFrames < 60 := by
      have hframes : (s.pendingFrames : Rat) < 60 := by linarith
      exact_mod_cast hframes
    refine ⟨⟨{ hopened with }, h.cycles, h.frames, ⟨since, hsince, ?_⟩, h.instructions⟩, hwait, hlt⟩
    exact (hroom.trans hnow).trans (hearliest time).ge

/-- A frame that is completed takes its interval. -/
theorem InPace.shown {m₁ m₂ : Machine} (h : InPace c time heard) (hc : 0 ≤ c)
    (hwait : heard.waitingUntil = none) (hlt : heard.pendingFrames < 60)
    (hframe : heard.machine.frame = .ok () m₁)
    (hrefresh : Machine.onScreen Screen.refresh m₁ = .ok () m₂) :
    InPace c time (heard.shown (Pacing.exact.frameEnd time) m₂) := by
  obtain ⟨hintact, hcycles⟩ := h.intact.of_frame hframe
  have hcompleted := h.intact.completed_of_frame hframe
  obtain ⟨d, hrefreshed, rfl⟩ :
      ∃ d, ({ m₁ with screen := { m₁.screen with display := d } } : Machine).Intact ∧
        m₂ = { m₁ with screen := { m₁.screen with display := d } } := by
    obtain ⟨d, hd, hscreen⟩ := hintact.screen.refresh
    rw [Machine.onScreen_apply, hd] at hrefresh
    cases hrefresh
    exact ⟨d, { hintact with screen := hscreen }, rfl⟩
  refine ⟨hrefreshed, hcycles.trans h.cycles, hlt, ?_, ?_⟩
  · obtain ⟨since, hdue, hroom⟩ := h.room
    rw [earliest, hwait, Option.getD_none] at hroom
    refine ⟨since, hdue, ?_⟩
    show since + ((heard.pendingFrames + 1 : Nat) : Rat) / 60 ≤ time + 1 / 60
    push_cast
    linarith
  · have hinstructions : (heard.machine.completed : Int) - heard.reported ≤
        c * heard.pendingFrames := h.instructions
    have hlength : (heard.machine.cyclesPerFrame.toNat : Int) = c := by
      rw [h.cycles, Int.toNat_of_nonneg hc]
    show (m₁.completed : Int) - heard.reported ≤ c * ((heard.pendingFrames + 1 : Nat) : Int)
    push_cast
    have hgrown : (m₁.completed : Int) ≤ heard.machine.completed + c := by
      rw [← hlength]
      exact_mod_cast hcompleted
    linarith

/-! ### The pace of a run -/

/-- The course of a session that is in pace stays in pace. -/
theorem Course.paced {waits : List Rat} {log : Log} (h : Course .exact host clock s waits log s')
    (h0 : ∀ k, 0 ≤ clock k) (hclock : Monotone clock) (hc : 0 ≤ c) (hs : InPace c now s)
    (hnow : now ≤ clock s.readings) : Paced c (s.earliest now) log := by
  induction h generalizing now with
  | exhausted s => exact ⟨nofun, .nil, nofun⟩
  | @wait s _ _ _ _ hwait _ ih =>
    have hnext : clock s.readings ≤ clock (s.readings + 1) := hclock (Nat.le_succ _)
    have hpaced := ih (hs.wait hwait) hnext
    exact { hpaced with
      first_le := fun t ht => (earliest_le_of_wait hwait).trans (hpaced.first_le t ht) }
  | quit => exact ⟨nofun, .nil, hs.figures hc _⟩
  | @failed s _ _ _ _ hwait =>
    refine ⟨fun t ht => ?_, List.pairwise_singleton _ _, hs.figures hc _⟩
    obtain rfl := List.mem_singleton.1 ht
    rw [earliest, hwait]
    exact hnow
  | @shown s _ heard _ log _ _ hwait hask hframe hrefresh _ ih =>
    obtain ⟨hheard, hwait', hlt⟩ := hs.ask hwait hnow (h0 _) hask
    have hreadings : heard.readings = s.readings + 1 := (heard_of_ask hask).readings
    have hnext : clock s.readings ≤ clock heard.readings :=
      hclock (hreadings ▸ Nat.le_succ s.readings)
    have hpaced := ih (hheard.shown hc hwait' hlt hframe hrefresh) hnext
    -- The frame that begins now is over before any other one begins.
    have hlater : ∀ t ∈ log.starts, clock s.readings + 1 / 60 ≤ t := hpaced.first_le
    refine ⟨?_, ?_, ?_⟩
    · rw [Log.starts_cons, earliest, hwait]
      refine List.forall_mem_cons.2 ⟨hnow, fun t ht => ?_⟩
      have := hlater t ht
      show now ≤ t
      linarith
    · rw [Log.starts_cons]
      exact List.pairwise_cons.2 ⟨hlater, hpaced.spaced⟩
    · rw [Log.reports_cons]
      exact List.forall_mem_append.2 ⟨hs.figures hc _, hpaced.figures⟩

/-- **No title shows more frames than fit in a second.** On any clock that does not go back and
shows no negative time, the frames of a run begin at least the sixtieth part of a second apart, and
the figures in its titles are at most sixty frames and the instructions of sixty frames. -/
theorem figures_bounded_by_pace {m : Machine} (hm : m.Attainable) (hc : 0 ≤ m.cyclesPerFrame)
    (h0 : ∀ k, 0 ≤ clock k) (hclock : Monotone clock) (host : Host) (limit : Nat) :
    ∃ (log : Log) (s : Session) (asked : Nat),
      run (onReading .exact host) clock limit (.start m) =
          log.ending.resume (throw .clockExhausted) s ∧
        Trail host clock log.calls ⟨m, 0, 0⟩ ⟨s.machine, asked, s.readings⟩ ∧
        (log.starts.Pairwise fun t t' => t + 1 / 60 ≤ t') ∧
        ∀ figures, .title figures ∈ log.calls →
          figures.frames ≤ 60 ∧ figures.instructions ≤ 60 * m.cyclesPerFrame := by
  obtain ⟨waits, log, s, hwaits, hrun, hcourse⟩ :=
    run_course (s := .start m) .exact host clock limit hm.intact
  obtain rfl : waits = [] := hwaits rfl
  obtain ⟨asked, htrail⟩ := hcourse.accounts.trail
  have hpaced := hcourse.paced h0 hclock hc (.start hm.intact) (h0 0)
  refine ⟨log, s, asked, hrun 0, htrail, hpaced.spaced, fun figures hfigures => ?_⟩
  obtain ⟨t, ht⟩ := Log.exists_mem_reports_of_title hfigures
  exact hpaced.figures _ ht

theorem figures_bounded_of_jump :
    let clock : Nat → Rat := fun k => (k ^ 2 : Nat) / 1000
    (Machine.standard [0x12, 0x00]).Attainable ∧
      0 ≤ (Machine.standard [0x12, 0x00]).cyclesPerFrame ∧ (∀ k, 0 ≤ clock k) ∧ Monotone clock ∧
      ∃ (log : Log) (s : Session),
        run (onReading .exact .idle) clock 100 (.start (Machine.standard [0x12, 0x00])) =
            log.ending.resume (throw .clockExhausted) s ∧
          (log.starts.Pairwise fun t t' => t + 1 / 60 ≤ t') ∧
          ∀ figures, .title figures ∈ log.calls →
            figures.frames ≤ 60 ∧ figures.instructions ≤ 60 * 20 := by
  intro clock
  have hm : (Machine.standard [0x12, 0x00]).Attainable :=
    (Machine.reachable_standard [0x12, 0x00] (by decide)).attainable
  have hc : 0 ≤ (Machine.standard [0x12, 0x00]).cyclesPerFrame := by decide
  have h0 : ∀ k, 0 ≤ clock k := fun k => by positivity
  have hclock : Monotone clock := by
    intro j k hjk
    have hsquares : ((j ^ 2 : Nat) : Rat) ≤ (k ^ 2 : Nat) := by
      exact_mod_cast Nat.pow_le_pow_left hjk 2
    show ((j ^ 2 : Nat) : Rat) / 1000 ≤ (k ^ 2 : Nat) / 1000
    linarith
  obtain ⟨log, s, asked, hrun, -, hstarts, hfigures⟩ :=
    figures_bounded_by_pace hm hc h0 hclock .idle 100
  exact ⟨hm, hc, h0, hclock, log, s, hrun, hstarts, hfigures⟩

end Session

end Chip8
