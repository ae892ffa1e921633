/-
# SpecEngine.Proofs.Retries -- how often a scenario is attempted

A scenario that is taken up is attempted once or several times. The attempts are the passes of a
loop: it ends with an attempt that did not fail, with the last one that is allowed, or when the
runner is found dead. `RetryLoop` is that loop with its counter, whatever numbers the counter is
made of. The engine knows beforehand how many passes are left and runs them by recursion on that
number; that it makes the passes of the loop is shown first, and what is said of the attempts is
then said by induction on the loop. A counter of 32 bits never goes round, since it is only counted
up below a limit of 32 bits.
-/
import SpecEngine.Proofs.Lifecycle

namespace SpecEngine.Engine

open Item (Scenario Specification)
open Result (ScenarioResult)
open Runner (Behavior Message)
open Event (Subject)

variable {σ : Type}

/-! ## The limit -/

/-- How often a scenario with these tags may be attempted. -/
def mostAttempts (settings : Config.Settings) (tags : List String) : Nat :=
  match settings.retryOnly with
  | some selector => if selector.selects tags then max 1 settings.maxAttempts else 1
  | none => max 1 settings.maxAttempts

theorem attemptLimit_eq (plan : Plan) (spec : Specification) (sc : Scenario) :
    attemptLimit plan spec sc = mostAttempts plan.settings (spec.scenarioTags sc) := by
  unfold attemptLimit mostAttempts Config.Settings.allowsRetry
  cases plan.settings.retryOnly with
  | none =>
    simp only [Option.map_none, Option.getD_none, Bool.and_true, decide_eq_true_eq]
    split <;> omega
  | some selector =>
    cases hselects : selector.selects (spec.scenarioTags sc) with
    | false => simp [hselects]
    | true =>
      simp only [Option.map_some, Option.getD_some, hselects, Bool.and_true, decide_eq_true_eq,
        if_true]
      split <;> omega

theorem mostAttempts_pos (settings : Config.Settings) (tags : List String) :
    1 ≤ mostAttempts settings tags := by
  unfold mostAttempts
  split
  · split <;> omega
  · omega

theorem mostAttempts_le (settings : Config.Settings) (tags : List String) :
    mostAttempts settings tags ≤ max 1 settings.maxAttempts := by
  unfold mostAttempts
  split
  · split <;> omega
  · exact Nat.le_refl _

/-- Scenarios that are not among those to be attempted again are attempted once. -/
theorem mostAttempts_unmatched {settings : Config.Settings} {tags : List String}
    {selector : Tag.Selector} (h : settings.retryOnly = some selector)
    (hselects : selector.selects tags = false) : mostAttempts settings tags = 1 := by
  simp [mostAttempts, h, hselects]

/-! ## The loop -/

/-- The passes of the retry loop from a number of the counter on: the results of the attempts, in
order, the number of the last one and the session that it leaves behind. -/
inductive RetryLoop {κ : Type} [LE κ] [LT κ] [Add κ] [OfNat κ 1] (b : Behavior σ) (plan : Plan)
    (spec : Specification) (sc : Scenario) (row : Option Table.Row) (limit : κ) :
    κ → Session σ → List ScenarioResult → κ → Session σ → Prop
  | ends {number : κ} {s t : Session σ} {r : ScenarioResult} :
      attempt b plan spec sc row s = (r, t) →
      r.status ≠ .failed ∨ limit ≤ number ∨ t.aborted = true →
      RetryLoop b plan spec sc row limit number s [r] number t
  | again {number last : κ} {s t u : Session σ} {r : ScenarioResult} {rs : List ScenarioResult} :
      attempt b plan spec sc row s = (r, t) → r.status = .failed → number < limit →
      t.aborted = false → RetryLoop b plan spec sc row limit (number + 1) t rs last u →
      RetryLoop b plan spec sc row limit number s (r :: rs) last u

/-- The engine makes the passes of the loop and keeps the result of the last one. -/
theorem attempts_loop (b : Behavior σ) (plan : Plan) (spec : Specification) (sc : Scenario)
    (row : Option Table.Row) (limit number : Nat) (s : Session σ) :
    ∃ rs last r t, RetryLoop b plan spec sc row limit number s rs last t ∧
      rs.getLast? = some r ∧
      attempts b plan spec sc row number (limit - number) s = ({ r with attempts := last }, t) := by
  generalize hmore : limit - number = more
  induction more generalizing number s with
  | zero =>
    rcases hattempt : attempt b plan spec sc row s with ⟨r, t⟩
    have hlimit : limit ≤ number := by omega
    refine ⟨[r], number, r, t, .ends hattempt (.inr (.inl hlimit)), rfl, ?_⟩
    simp only [attempts, bind_run, pure_run, hattempt]
  | succ more ih =>
    rcases hattempt : attempt b plan spec sc row s with ⟨r, t⟩
    cases hends : (r.status != .failed || t.aborted) with
    | true =>
      refine ⟨[r], number, r, t, .ends hattempt ?_, rfl, ?_⟩
      · have hends : r.status ≠ .failed ∨ t.aborted = true := by simpa using hends
        exact hends.imp_right .inr
      · simp only [attempts, bind_run, isAborted_run, ite_run, pure_run, hattempt, hends, if_true]
    | false =>
      obtain ⟨hfailed, halive⟩ : r.status = .failed ∧ t.aborted = false := by simpa using hends
      have hlimit : number < limit := by omega
      obtain ⟨rs, last, kept, u, hloop, hkept, hattempts⟩ := ih (number + 1) t (by omega)
      refine ⟨r :: rs, last, kept, u, .again hattempt hfailed hlimit halive hloop, ?_, ?_⟩
      · rw [List.getLast?_cons, hkept]
        rfl
      · simp only [attempts, bind_run, isAborted_run, ite_run, hattempt, hends,
          Bool.false_eq_true, if_false, hattempts]

section

variable {b : Behavior σ} {plan : Plan} {spec : Specification} {sc : Scenario}
variable {row : Option Table.Row} {s t : Session σ} {rs : List ScenarioResult}

namespace RetryLoop

/-- Every attempt before the last one failed. -/
theorem earlier_failed {κ : Type} [LE κ] [LT κ] [Add κ] [OfNat κ 1] {limit number last : κ}
    (h : RetryLoop b plan spec sc row limit number s rs last t) :
    ∀ r ∈ rs.dropLast, r.status = .failed := by
  induction h with
  | ends _ _ => simp
  | @again _ _ _ _ _ r rs _ hfailed _ _ hloop ih =>
    obtain _ | ⟨next, later⟩ := rs
    · simp
    · rw [List.dropLast_cons_cons]
      exact List.forall_mem_cons.mpr ⟨hfailed, ih⟩

/-- If the last attempt failed too, no further one was allowed or the runner was found dead. -/
theorem exhausted {κ : Type} [LE κ] [LT κ] [Add κ] [OfNat κ 1] {limit number last : κ}
    {r : ScenarioResult} (h : RetryLoop b plan spec sc row limit number s rs last t)
    (hlast : rs.getLast? = some r) (hfailed : r.status = .failed) :
    limit ≤ last ∨ t.aborted = true := by
  induction h with
  | ends _ hends =>
    obtain rfl := Option.some.inj hlast
    exact hends.resolve_left fun hnot => hnot hfailed
  | @again _ _ _ _ _ first rs _ _ _ _ hloop ih =>
    refine ih ?_
    rw [List.getLast?_cons] at hlast
    cases hrest : rs.getLast? with
    | none =>
      -- the rest of the loop has passes of its own
      rw [List.getLast?_eq_none_iff] at hrest
      subst hrest
      cases hloop
    | some last => rwa [hrest] at hlast

/-- The counter goes up by one for each attempt after the first. -/
theorem last_eq {limit number last : Nat}
    (h : RetryLoop b plan spec sc row limit number s rs last t) :
    last + 1 = number + rs.length := by
  induction h with
  | ends _ _ => rfl
  | again _ _ _ _ _ ih =>
    rw [List.length_cons]
    omega

theorem last_le {limit number last : Nat}
    (h : RetryLoop b plan spec sc row limit number s rs last t) : last ≤ max number limit := by
  induction h with
  | ends _ _ => exact Nat.le_max_left _ _
  | again _ _ _ _ _ ih => omega

/-- If the limit has 32 bits, a counter of 32 bits does. -/
theorem fits {limit number last : Nat}
    (h : RetryLoop b plan spec sc row limit number s rs last t) {limit' number' : UInt32}
    (hlimit : limit'.toNat = limit) (hnumber : number'.toNat = number) :
    ∃ last' : UInt32, RetryLoop b plan spec sc row limit' number' s rs last' t ∧
      last'.toNat = last := by
  induction h generalizing number' with
  | ends hattempt hends =>
    refine ⟨number', .ends hattempt (hends.imp_right (Or.imp_left fun h => ?_)), hnumber⟩
    rw [UInt32.le_iff_toNat_le]
    omega
  | again hattempt hfailed hless halive _ ih =>
    -- below the limit there is a next number
    have hnext : (number' + 1).toNat = number'.toNat + 1 := by
      have hbound := limit'.toNat_lt
      rw [UInt32.toNat_add, UInt32.toNat_one]
      omega
    obtain ⟨last', hloop, hlast⟩ := ih (hnext.trans (by rw [hnumber]))
    refine ⟨last', .again hattempt hfailed ?_ halive hloop, hlast⟩
    rw [UInt32.lt_iff_toNat_lt]
    omega

end RetryLoop

end

/-! ## Announcements of attempts -/

/-- Whether the message announces the start or the end of an attempt at a scenario. -/
def isOfScenario : Message → Bool
  | .scenarioStarting .. | .scenarioEnding .. => true
  | _ => false

/-- The announcements that bracket an attempt. -/
def attemptBrackets (spec : Specification) (sc : Scenario) : List Message :=
  [.scenarioStarting spec.fileName sc.heading (spec.scenarioTags sc),
    .scenarioEnding spec.fileName sc.heading (spec.scenarioTags sc)]

theorem stepBlocks_ofScenario {steps : List Item.Step} {ms : List Message}
    (h : Blocks StepBlock steps ms) : ms.filter isOfScenario = [] := by
  induction h with
  | nil => rfl
  | cons hblock _ ih =>
    rw [List.filter_append, ih, List.append_nil]
    cases hblock <;> rfl

theorem AttemptBlock.ofScenario {spec : Specification} {sc : Scenario} {ms : List Message}
    (h : AttemptBlock spec sc ms) : ms.filter isOfScenario = attemptBrackets spec sc := by
  cases h with
  | around _ hblocks =>
    rw [List.filter_cons_of_pos rfl, List.filter_append, stepBlocks_ofScenario hblocks]
    rfl

/-- The attempts of the loop are announced to the runner one after the other, each by its start and
its end. -/
theorem RetryLoop.sent {κ : Type} [LE κ] [LT κ] [Add κ] [OfNat κ 1] {b : Behavior σ} {plan : Plan}
    {spec : Specification} {sc : Scenario} {row : Option Table.Row} {limit number last : κ}
    {s t : Session σ} {rs : List ScenarioResult}
    (h : RetryLoop b plan spec sc row limit number s rs last t) :
    ∃ sent, t.offers = s.offers ++ sent ∧
      sent.filter isOfScenario = (List.replicate rs.length (attemptBrackets spec sc)).flatten := by
  have hattempt (s : Session σ) : ∃ sent,
      (attempt b plan spec sc row s).2.offers = s.offers ++ sent ∧
        sent.filter isOfScenario = attemptBrackets spec sc := by
    obtain ⟨hs, hrun, hhistory⟩ := attempt_history b plan spec sc row s
    exact ⟨messages hs, hrun.offers_eq, hhistory.block.ofScenario⟩
  induction h with
  | @ends _ s _ _ hrun _ =>
    obtain ⟨sent, hsent, hbrackets⟩ := hattempt s
    rw [hrun] at hsent
    exact ⟨sent, hsent, by simpa using hbrackets⟩
  | @again _ _ s _ _ _ rs hrun _ _ _ _ ih =>
    obtain ⟨sent, hsent, hbrackets⟩ := hattempt s
    obtain ⟨more, hmore, hothers⟩ := ih
    rw [hrun] at hsent
    refine ⟨sent ++ more, ?_, ?_⟩
    · rw [hmore, hsent, List.append_assoc]
    · rw [List.filter_append, hbrackets, hothers, List.length_cons, List.replicate_succ,
        List.flatten_cons]

/-! ## Scenarios -/

/-- Between these sessions a scenario was attempted with these results, and `r` is what is reported
of it. -/
structure Retried (b : Behavior σ) (plan : Plan) (spec : Specification) (sc : Scenario)
    (row : Option Table.Row) (s : Session σ) (made : List ScenarioResult) (t : Session σ)
    (r : ScenarioResult) : Prop where
  loop : RetryLoop b plan spec sc row (attemptLimit plan spec sc) 1 s made made.length t
  /-- With a limit of 32 bits, a counter of 32 bits counts the attempts. -/
  counted : ∀ limit : UInt32, limit.toNat = attemptLimit plan spec sc →
    ∃ last : UInt32, RetryLoop b plan spec sc row limit 1 s made last t ∧
      last.toNat = made.length
  attempted : 1 ≤ made.length
  bounded : made.length ≤ max 1 plan.settings.maxAttempts
  unmatched : ∀ selector, plan.settings.retryOnly = some selector →
    selector.selects (spec.scenarioTags sc) = false → made.length = 1
  sent : ∃ sent, t.offers = s.offers ++ sent ∧
    sent.filter isOfScenario = (List.replicate made.length (attemptBrackets spec sc)).flatten
  earlier : ∀ a ∈ made.dropLast, a.status = .failed
  kept : ∃ last ∈ made.getLast?, r = { last with attempts := made.length }
  exhausted : r.status = .failed →
    made.length = mostAttempts plan.settings (spec.scenarioTags sc) ∨ t.aborted = true

theorem attempts_retried (b : Behavior σ) (plan : Plan) (spec : Specification) (sc : Scenario)
    (row : Option Table.Row) (s : Session σ) :
    ∃ made, Retried b plan spec sc row s made
      (attempts b plan spec sc row 1 (attemptLimit plan spec sc - 1) s).2
      (attempts b plan spec sc row 1 (attemptLimit plan spec sc - 1) s).1 := by
  obtain ⟨made, last, kept, t, hloop, hkept, hattempts⟩ :=
    attempts_loop b plan spec sc row (attemptLimit plan spec sc) 1 s
  have hlast : last = made.length := by
    have := hloop.last_eq
    omega
  subst hlast
  have hmost := attemptLimit_eq plan spec sc
  have hpos := mostAttempts_pos plan.settings (spec.scenarioTags sc)
  have hne : made ≠ [] := fun h => by simp [h] at hkept
  have hlength : made.length ≤ mostAttempts plan.settings (spec.scenarioTags sc) := by
    have := hloop.last_le
    omega
  have hattempted := List.length_pos_iff.mpr hne
  rw [hattempts]
  refine ⟨made, ?_⟩
  constructor
  case loop => exact hloop
  case counted => exact fun limit hlimit => hloop.fits hlimit rfl
  case attempted => exact hattempted
  case bounded => exact Nat.le_trans hlength (mostAttempts_le _ _)
  case unmatched =>
    intro selector hselector hselects
    rw [mostAttempts_unmatched hselector hselects] at hlength
    omega
  case sent => exact hloop.sent
  case earlier => exact hloop.earlier_failed
  case kept => exact ⟨kept, hkept, rfl⟩
  case exhausted =>
    intro hfailed
    refine (hloop.exhausted hkept hfailed).imp_left fun hlimit => ?_
    omega

/-- A scenario that has no build errors and whose runner was not found dead is attempted at least
once and at most as often as the configuration allows for its tags. Every attempt is announced to
the runner, all but the last one failed, the last one is reported with the number of attempts, and
if it failed too, there was no further one to make or the runner was found dead. -/
theorem scenario_retry_law (b : Behavior σ) (plan : Plan) (spec : Specification) (sc : Scenario)
    (row : Option Table.Row) {s : Session σ}
    (hwell : (plan.buildErrors.ofScenario spec sc).isSome = false) (halive : s.aborted = false) :
    ∃ made t,
      Retried b plan spec sc row
        (announce .scenarioStart (.ofScenario spec sc (row.map (·.index))) none s).2 made t
        (runScenario b plan spec sc row s).1 ∧
      (runScenario b plan spec sc row s).2 =
        (announce .scenarioEnd (.ofScenario spec sc (row.map (·.index)))
          (some (.scenario (runScenario b plan spec sc row s).1)) t).2 := by
  obtain ⟨made, hretried⟩ := attempts_retried b plan spec sc row
    (announce .scenarioStart (.ofScenario spec sc (row.map (·.index))) none s).2
  simp only [runScenario, ite_run, hwell, bind_run, isAborted_run, halive, pure_run,
    Bool.false_eq_true, if_false]
  exact ⟨made, _, hretried, rfl⟩

/-! ### A flaky step -/

/-- A runner that fails the first two executions and passes everything else. -/
def failingTwice : Behavior Nat where
  alive _ := true
  answer executed
    | .executeStep .. => (.ok (.statusResponse { failed := executed < 2 }), executed + 1)
    | _ => (.ok (.statusResponse {}), executed)
  kill executed := (.ok (), executed)

/-- A scenario of one step. -/
def flakyScenario : Scenario := { heading := "Flaky", steps := [.step { text := "sometimes" }] }

/-- A specification of the scenario. -/
def flakySpec : Specification :=
  { heading := "Retries", fileName := "retries.spec", scenarios := [flakyScenario] }

/-- A plan that allows five attempts. -/
def fiveAttempts : Plan where
  manifest := { language := "python" }
  specs := [flakySpec]
  settings := { maxAttempts := 5 }

/-- A new session with the runner, which has executed nothing. -/
def freshSession : Session Nat := { stream := 0, runner := 0 }

/-- A scenario whose step fails twice is attempted three times of five, and it has passed. -/
theorem flaky_scenario_retried :
    (fiveAttempts.buildErrors.ofScenario flakySpec flakyScenario).isSome = false ∧
      ∃ made t,
        Retried failingTwice fiveAttempts flakySpec flakyScenario none
          (announce .scenarioStart (.ofScenario flakySpec flakyScenario none) none
            freshSession).2 made t
          (runScenario failingTwice fiveAttempts flakySpec flakyScenario none freshSession).1 ∧
        made.length = 3 ∧
        (runScenario failingTwice fiveAttempts flakySpec flakyScenario none
          freshSession).1.status = .passed := by
  have hwell : (fiveAttempts.buildErrors.ofScenario flakySpec flakyScenario).isSome = false := by
    decide
  obtain ⟨made, t, hretried, -⟩ := scenario_retry_law failingTwice fiveAttempts flakySpec
    flakyScenario none (s := freshSession) hwell rfl
  have hattempts : (runScenario failingTwice fiveAttempts flakySpec flakyScenario none
      freshSession).1.attempts = 3 := by decide +kernel
  obtain ⟨last, -, hkept⟩ := hretried.kept
  refine ⟨hwell, made, t, hretried, ?_, by decide +kernel⟩
  rw [← hattempts, hkept]

end SpecEngine.Engine
