import HeldReply.Proofs.Exchange.Body
import HeldReply.Proofs.Workers.Jobs
import Mathlib.Data.List.Perm.Subperm

/-!
# Sessions follow the first pull

Of all the requests that a service accepts, the bodies are pulled, go away or are left alone in any
order, and for each of them one task waits that starts the session.  The task looks for the first pull
and then for the body's going away, so that a body which was pulled and is gone when the task has its
turn has been pulled.  A turn of the task is one step.

* `Service.Event`, `Service.step`, `Service.run` — what happens to a service, in any order;
* `Service.pulled`, `Service.left` — what happened to a body so far;
* `Exchange.Fits`, `Service.Fits` — **the invariant**: what exchanges and counters show of it;
* `Service.Fits.step`, `Service.Fits.run` — a step and a run keep it;
* `Service.sessions_follow_pulls` — **as many sessions as bodies that were pulled**.
-/

namespace HeldReply

namespace Service

/-- What **happens** to a service. -/
inductive Event where
  | receive (r : Http.Request)
  /-- The body of an exchange is pulled. -/
  | pull (i : Nat)
  /-- The body of an exchange goes away. -/
  | leave (i : Nat)
  /-- The task that starts the session of an exchange has its turn. -/
  | start (i : Nat)
  /-- A task of the session, its handler or others do something to the session. -/
  | work (i : Nat) (change : Session Channel → Session Channel)
  /-- The clock moves. -/
  | tick (now : Nat)

/-- Something is done to the body of an exchange; `none` if it is not there. -/
def atBody (s : Service) (i : Nat) (act : Exchange → Exchange) : Option Service :=
  if s.exchanges[i]?.any fun e => e.channel.hasBody then
    some (s.onExchange i fun e => (act e, ())).1
  else none

/-- **One step**; `none` if it is not possible. -/
def step (s : Service) : Event → Option Service
  | .receive r => some (s.handle r).1
  | .pull i => s.atBody i Exchange.readOnce
  | .leave i => s.atBody i Exchange.leave
  | .start i => some (s.start i)
  | .work i change => some (s.onSession i fun v => (change v, ())).1
  | .tick now =>
    if s.now ≤ now then some { s with now, exchanges := s.exchanges.map (Timed.atTime now) }
    else none

/-- Steps that follow one another. -/
def run (s : Service) (es : List Event) : Option Service :=
  es.foldlM step s

/-- Whether a request is accepted by a service. -/
def Event.isAccepted (s : Service) : Event → Bool
  | .receive r => (HeldReply.receive s.settings s.routes r).isAccepted
  | _ => false

def Event.isPull (i : Nat) : Event → Bool
  | .pull j => j == i
  | _ => false

def Event.isLeave (i : Nat) : Event → Bool
  | .leave j => j == i
  | _ => false

/-- Whether a body was **pulled** so far. -/
def pulled (es : List Event) (i : Nat) : Bool :=
  es.any (Event.isPull i)

/-- Whether a body **went away** so far. -/
def left (es : List Event) (i : Nat) : Bool :=
  es.any (Event.isLeave i)

end Service

/-! ### One exchange -/

namespace Exchange

variable {e : Exchange} {pulled left : Bool} {jobs : Nat}

/-- **What an exchange shows** of what happened to its body, and of how often its handler was given
to the workers. -/
def Fits (e : Exchange) (pulled left : Bool) (jobs : Nat) : Prop :=
  match e.stage with
  | .waiting line =>
    line.link.opened = pulled ∧ line.link.closed = left ∧ line.link.hasBody = !left ∧ jobs = 0
  | .running _ _ => pulled = true ∧ jobs = 1
  | .abandoned line =>
    pulled = false ∧ left = true ∧ line.link.hasBody = false ∧ jobs = 0

theorem Fits.ofAccepted (a : Accepted) (now : Nat) : (ofAccepted a now).Fits false false 0 :=
  ⟨rfl, rfl, rfl, rfl⟩

/-- **The body is pulled.** -/
theorem Fits.readOnce (h : e.Fits pulled left jobs) (hb : e.channel.hasBody = true) :
    e.readOnce.Fits true left jobs := by
  have hread : e.readOnce = (e.withChannel e.channel.pull.1).keep e.channel.pull.2 := rfl
  have hpull (c : Channel) : c.pull.1.opened = true ∧ c.pull.1.closed = c.closed ∧
      c.pull.1.hasBody = c.hasBody := by
    obtain ⟨f, rest, ws, -, -, hp⟩ | ⟨f, rest, -, -, hp⟩ | ⟨-, hp⟩ := c.pull_cases <;>
      rw [hp] <;> exact ⟨rfl, rfl, rfl⟩
  unfold Fits
  rw [hread, (stage_keep _ _).1]
  obtain ⟨a, stage, reader, got⟩ := e
  cases stage with
  | waiting line =>
    obtain ⟨-, hclosed, hbody, hjobs⟩ := h
    obtain ⟨hopened, hclosed', hbody'⟩ := hpull line.link
    exact ⟨hopened, hclosed'.trans hclosed, hbody'.trans hbody, hjobs⟩
  | running s ending => exact ⟨rfl, h.2⟩
  | abandoned line =>
    obtain ⟨-, -, hgone, -⟩ := h
    cases hgone.symm.trans hb

/-- **The body goes away.** -/
theorem Fits.leave (h : e.Fits pulled left jobs) : e.leave.Fits pulled true jobs := by
  obtain ⟨a, stage, reader, got⟩ := e
  cases stage with
  | waiting line =>
    obtain ⟨hopened, -, -, hjobs⟩ := h
    exact ⟨hopened, rfl, rfl, hjobs⟩
  | running s ending => exact h
  | abandoned line =>
    obtain ⟨hpulled, -, -, hjobs⟩ := h
    exact ⟨hpulled, rfl, rfl, hjobs⟩

/-- **The task that starts the session has its turn**: the handler is given to the workers if the
session starts. -/
theorem Fits.start (h : e.Fits pulled left jobs) (id : Nat) :
    (e.start id).1.Fits pulled left (jobs + (e.start id).2.toNat) := by
  obtain ⟨a, stage, reader, got⟩ := e
  cases stage with
  | waiting line =>
    obtain ⟨hopened, hclosed, hbody, hjobs⟩ := h
    unfold Exchange.start
    dsimp only
    -- That the body was pulled is looked at first.
    by_cases ho : line.link.opened = true
    · rw [if_pos ho, hjobs]
      exact ⟨hopened.symm.trans ho, rfl⟩
    · rw [if_neg ho]
      by_cases hc : line.link.closed = true
      · rw [if_pos hc]
        obtain rfl : left = true := hclosed.symm.trans hc
        exact ⟨hopened.symm.trans (Bool.eq_false_iff.2 ho), rfl, hbody, hjobs⟩
      · rw [if_neg hc]
        exact ⟨hopened, hclosed, hbody, hjobs⟩
  | running s ending => exact h
  | abandoned line => exact h

/-- Something is done to the session. -/
theorem Fits.onSession {α : Type} (h : e.Fits pulled left jobs)
    (act : Session Channel → Session Channel × α) : (e.onSession act).1.Fits pulled left jobs := by
  obtain ⟨a, stage, reader, got⟩ := e
  cases stage <;> exact h

theorem Fits.atTime (h : e.Fits pulled left jobs) (now : Nat) :
    (Timed.atTime now e).Fits pulled left jobs := by
  obtain ⟨a, stage, reader, got⟩ := e
  cases stage <;> exact h

/-- A body that went away before it was pulled is gone. -/
theorem Fits.hasBody (h : e.Fits false true jobs) : e.channel.hasBody = false := by
  obtain ⟨a, stage, reader, got⟩ := e
  cases stage with
  | waiting line => exact h.2.2.1
  | running s ending => cases h.1
  | abandoned line => exact h.2.2.1

/-- No session starts whose body was not pulled. -/
theorem Fits.session? (h : e.Fits false left jobs) :
    e.session? = none ∧ e.ending? = none ∧ jobs = 0 := by
  obtain ⟨a, stage, reader, got⟩ := e
  cases stage with
  | waiting line => exact ⟨rfl, rfl, h.2.2.2⟩
  | running s ending => cases h.1
  | abandoned line => exact ⟨rfl, rfl, h.2.2.2⟩

/-- When the task that starts the session has nothing to do any more, a session started if the body
was pulled. -/
theorem Fits.at_rest (h : e.Fits pulled left jobs) (hr : e.canStart = false) :
    jobs = pulled.toNat ∧ (pulled = true → ∃ s, e.session? = some s) := by
  obtain ⟨a, stage, reader, got⟩ := e
  cases stage with
  | waiting line =>
    obtain ⟨hopened, -, -, rfl⟩ := h
    obtain ⟨hnot, -⟩ := Bool.or_eq_false_iff.1 hr
    obtain rfl : pulled = false := hopened.symm.trans hnot
    exact ⟨rfl, Bool.noConfusion⟩
  | running s ending =>
    obtain ⟨rfl, rfl⟩ := h
    exact ⟨rfl, fun _ => ⟨s, rfl⟩⟩
  | abandoned line =>
    obtain ⟨rfl, -, -, rfl⟩ := h
    exact ⟨rfl, Bool.noConfusion⟩

theorem Fits.jobs_le (h : e.Fits pulled left jobs) : jobs ≤ 1 := by
  obtain ⟨a, stage, reader, got⟩ := e
  cases stage with
  | waiting line =>
    obtain ⟨-, -, -, hjobs⟩ := h
    omega
  | running s ending => exact Nat.le_of_eq h.2
  | abandoned line =>
    obtain ⟨-, -, -, hjobs⟩ := h
    omega

end Exchange

namespace Service

variable {s₀ s t : Service} {es fs : List Event} {e : Event} {x y : Exchange} {i j k : Nat}

/-! ### One step -/

/-- What a service shows of one exchange; of one that is not there yet, nothing happened. -/
def FitsAt (s : Service) (es : List Event) (i : Nat) : Prop :=
  match s.exchanges[i]? with
  | none => pulled es i = false ∧ left es i = false ∧ s.jobs.count i = 0
  | some e => e.Fits (pulled es i) (left es i) (s.jobs.count i)

/-- **What a service shows** of what happened since it began. -/
structure Fits (s₀ s : Service) (es : List Event) : Prop where
  settings : s.settings = s₀.settings
  routes : s.routes = s₀.routes
  accepted : s.exchanges.length = es.countP (Event.isAccepted s₀)
  started : s.started = s.jobs.length
  exchange (i : Nat) : s.FitsAt es i

theorem FitsAt.of_some (h : s.FitsAt es i) (hx : s.exchanges[i]? = some x) :
    x.Fits (pulled es i) (left es i) (s.jobs.count i) := by
  unfold FitsAt at h
  rwa [hx] at h

theorem FitsAt.of_none (h : s.FitsAt es i) (hx : s.exchanges[i]? = none) :
    pulled es i = false ∧ left es i = false ∧ s.jobs.count i = 0 := by
  unfold FitsAt at h
  rwa [hx] at h

theorem pulled_append (es : List Event) (e : Event) (i : Nat) :
    pulled (es ++ [e]) i = (pulled es i || e.isPull i) := by
  simp [pulled]

theorem left_append (es : List Event) (e : Event) (i : Nat) :
    left (es ++ [e]) i = (left es i || e.isLeave i) := by
  simp [left]

/-- An exchange to which nothing happens. -/
theorem FitsAt.same (h : s.FitsAt es i) (hx : t.exchanges[i]? = s.exchanges[i]?)
    (hj : t.jobs.count i = s.jobs.count i) (hp : e.isPull i = false) (hl : e.isLeave i = false) :
    t.FitsAt (es ++ [e]) i := by
  unfold FitsAt
  rw [hx, hj, pulled_append, left_append, hp, hl, Bool.or_false, Bool.or_false]
  exact h

/-- Nothing happens. -/
theorem Fits.same (h : Fits s₀ s es) (ha : e.isAccepted s₀ = false)
    (hp : ∀ i, e.isPull i = false) (hl : ∀ i, e.isLeave i = false) : Fits s₀ s (es ++ [e]) := by
  refine ⟨h.settings, h.routes, ?_, h.started, fun i => ?_⟩
  · rw [h.accepted, List.countP_append, List.countP_singleton, ha]
    rfl
  · exact (h.exchange i).same rfl rfl (hp i) (hl i)

/-- **Something happens to one exchange**, and its handler is given to the workers so many times. -/
theorem Fits.set (h : Fits s₀ s es) (hx : s.exchanges[i]? = some x)
    (ht : t = { s with
      exchanges := s.exchanges.set i y
      started := s.started + k
      jobs := s.jobs ++ List.replicate k i })
    (ha : e.isAccepted s₀ = false)
    (hother : ∀ j, j ≠ i → e.isPull j = false ∧ e.isLeave j = false)
    (hy : y.Fits (pulled es i || e.isPull i) (left es i || e.isLeave i) (s.jobs.count i + k)) :
    Fits s₀ t (es ++ [e]) := by
  subst ht
  refine ⟨h.settings, h.routes, ?_, ?_, fun j => ?_⟩
  · rw [List.length_set, h.accepted, List.countP_append, List.countP_singleton, ha]
    rfl
  · show s.started + k = (s.jobs ++ List.replicate k i).length
    rw [List.length_append, List.length_replicate, h.started]
  · by_cases hj : j = i
    · subst hj
      unfold FitsAt
      rw [List.getElem?_set_self (List.getElem?_eq_some_iff.1 hx).1, pulled_append, left_append,
        List.count_append, List.count_replicate_self]
      exact hy
    · obtain ⟨hp, hl⟩ := hother j hj
      refine (h.exchange j).same (List.getElem?_set_ne (Ne.symm hj)) ?_ hp hl
      rw [List.count_append, List.count_replicate]
      simp [Ne.symm hj]

/-- Something that happens to an exchange and starts no session. -/
theorem Fits.onExchange {act : Exchange → Exchange × α} (h : Fits s₀ s es)
    (hx : s.exchanges[i]? = some x) (ha : e.isAccepted s₀ = false)
    (hother : ∀ j, j ≠ i → e.isPull j = false ∧ e.isLeave j = false)
    (hy : (act x).1.Fits (pulled es i || e.isPull i) (left es i || e.isLeave i)
      (s.jobs.count i)) :
    Fits s₀ (s.onExchange i act).1 (es ++ [e]) := by
  refine h.set (k := 0) hx ?_ ha hother hy
  rw [List.replicate_zero, List.append_nil, Service.onExchange, hx]
  rfl

theorem start_of_some (hx : s.exchanges[i]? = some x) :
    s.start i = { s with
      exchanges := s.exchanges.set i (x.start (s.started + 1)).1
      started := s.started + (x.start (s.started + 1)).2.toNat
      jobs := s.jobs ++ List.replicate (x.start (s.started + 1)).2.toNat i } := by
  unfold start
  cases hy : x.start (s.started + 1) with
  | mk y starts => cases starts <;> simp [hx, hy]

theorem start_of_none (hx : s.exchanges[i]? = none) : s.start i = s := by
  rw [start, hx]

theorem onSession_of_none {α : Type} (hx : s.exchanges[i]? = none)
    (act : Session Channel → Session Channel × α) : (s.onSession i act).1 = s := by
  rw [onSession, Service.onExchange, hx]

/-- What is done to a body that is there. -/
theorem exists_of_atBody {act : Exchange → Exchange} (h : s.atBody i act = some t) :
    ∃ x, s.exchanges[i]? = some x ∧ x.channel.hasBody = true ∧
      t = (s.onExchange i fun e => (act e, ())).1 := by
  unfold atBody at h
  split at h
  · rename_i hb
    cases hx : s.exchanges[i]? with
    | none =>
      rw [hx] at hb
      cases hb
    | some x =>
      rw [hx] at hb
      exact ⟨x, rfl, hb, (Option.some.inj h).symm⟩
  · cases h

/-- **A request is received.** -/
theorem Fits.receive (h : Fits s₀ s es) (r : Http.Request) :
    Fits s₀ (s.handle r).1 (es ++ [.receive r]) := by
  cases hd : (HeldReply.receive s.settings s.routes r).result with
  | error f =>
    have ha : Event.isAccepted s₀ (.receive r) = false := by
      rw [Event.isAccepted, ← h.settings, ← h.routes, Decision.isAccepted, hd]
    rw [handle_of_error hd]
    exact h.same ha (fun _ => rfl) fun _ => rfl
  | ok a =>
    have ha : Event.isAccepted s₀ (.receive r) = true := by
      rw [Event.isAccepted, ← h.settings, ← h.routes, Decision.isAccepted, hd]
    rw [handle_of_ok hd]
    refine ⟨h.settings, h.routes, ?_, h.started, fun i => ?_⟩
    · rw [List.length_append, h.accepted, List.countP_append, List.countP_singleton, ha]
      rfl
    · by_cases hi : i = s.exchanges.length
      · -- This is the new exchange, and nothing happened to it yet.
        subst hi
        obtain ⟨hp, hl, hj⟩ := (h.exchange _).of_none (List.getElem?_eq_none (Nat.le_refl _))
        unfold FitsAt
        rw [List.getElem?_concat_length, pulled_append, left_append, hp, hl]
        show (Exchange.ofAccepted a s.now).Fits false false (s.jobs.count s.exchanges.length)
        rw [hj]
        exact Exchange.Fits.ofAccepted a s.now
      · refine (h.exchange i).same ?_ rfl rfl rfl
        rcases Nat.lt_or_ge i s.exchanges.length with hlt | hge
        · exact List.getElem?_append_left hlt
        · rw [List.getElem?_eq_none hge, List.getElem?_eq_none]
          rw [List.length_append, List.length_singleton]
          omega

/-- **A step keeps what a service shows.** -/
theorem Fits.step (h : Fits s₀ s es) (hs : s.step e = some t) : Fits s₀ t (es ++ [e]) := by
  cases e with
  | receive r =>
    cases hs
    exact h.receive r
  | pull i =>
    obtain ⟨x, hx, hb, rfl⟩ := exists_of_atBody hs
    have hother (j : Nat) (hj : j ≠ i) : Event.isPull j (.pull i) = false := by
      simp [Event.isPull, hj.symm]
    refine h.onExchange hx rfl (fun j hj => ⟨hother j hj, rfl⟩) ?_
    simpa [Event.isPull, Event.isLeave] using ((h.exchange i).of_some hx).readOnce hb
  | leave i =>
    obtain ⟨x, hx, -, rfl⟩ := exists_of_atBody hs
    have hother (j : Nat) (hj : j ≠ i) : Event.isLeave j (.leave i) = false := by
      simp [Event.isLeave, hj.symm]
    refine h.onExchange hx rfl (fun j hj => ⟨rfl, hother j hj⟩) ?_
    simpa [Event.isPull, Event.isLeave] using ((h.exchange i).of_some hx).leave
  | start i =>
    cases hs
    cases hx : s.exchanges[i]? with
    | none =>
      rw [start_of_none hx]
      exact h.same rfl (fun _ => rfl) fun _ => rfl
    | some x =>
      refine h.set hx (start_of_some hx) rfl (fun _ _ => ⟨rfl, rfl⟩) ?_
      simpa [Event.isPull, Event.isLeave] using ((h.exchange i).of_some hx).start _
  | work i change =>
    cases hs
    cases hx : s.exchanges[i]? with
    | none =>
      rw [onSession_of_none hx]
      exact h.same rfl (fun _ => rfl) fun _ => rfl
    | some x =>
      have hfits := ((h.exchange i).of_some hx).onSession fun v => (change v, ())
      show Fits s₀ (s.onExchange i fun e => e.onSession fun v => (change v, ())).1 _
      refine h.onExchange hx rfl (fun _ _ => ⟨rfl, rfl⟩) ?_
      simpa [Event.isPull, Event.isLeave] using hfits
  | tick now =>
    rw [Service.step] at hs
    split at hs <;> cases hs
    refine ⟨h.settings, h.routes, ?_, h.started, fun i => ?_⟩
    · rw [List.length_map, h.accepted, List.countP_append]
      rfl
    · unfold FitsAt
      rw [List.getElem?_map, pulled_append, left_append]
      cases hx : s.exchanges[i]? with
      | none => simpa [Event.isPull, Event.isLeave] using (h.exchange i).of_none hx
      | some x =>
        simpa [Event.isPull, Event.isLeave] using ((h.exchange i).of_some hx).atTime now

/-! ### A whole run -/

/-- **A run keeps what a service shows.** -/
theorem Fits.run (h : Fits s₀ s es) (hs : s.run fs = some t) : Fits s₀ t (es ++ fs) := by
  induction fs generalizing s es with
  | nil =>
    cases hs
    rw [List.append_nil]
    exact h
  | cons e fs ih =>
    obtain ⟨u, hu, hs⟩ := Option.bind_eq_some_iff.1 hs
    rw [← List.singleton_append, ← List.append_assoc]
    exact ih (h.step hu) hs

/-- **A body that went away before it was pulled is never pulled.** -/
theorem Fits.not_pulled (h : Fits s₀ s es) (hp : pulled es i = false) (hl : left es i = true)
    (hs : s.run fs = some t) : pulled (es ++ fs) i = false := by
  induction fs generalizing s es with
  | nil => rwa [List.append_nil]
  | cons e fs ih =>
    obtain ⟨u, hu, hs⟩ := Option.bind_eq_some_iff.1 hs
    have hnot : e.isPull i = false := by
      cases e with
      | pull j =>
        by_cases hj : j = i
        · subst hj
          obtain ⟨x, hx, hb, -⟩ := exists_of_atBody hu
          have hfits := (h.exchange j).of_some hx
          rw [hp, hl] at hfits
          cases hfits.hasBody.symm.trans hb
        · simp [Event.isPull, hj]
      | receive | leave | start | work | tick => rfl
    rw [← List.singleton_append, ← List.append_assoc]
    refine ih (h.step hu) ?_ ?_ hs
    · rw [pulled_append, hp, hnot, Bool.or_false]
    · rw [left_append, hl, Bool.true_or]

/-- Nothing happened yet. -/
theorem Fits.of_create {settings : Settings} {routes : Routes Handler}
    (h : create settings routes = .ok s) : Fits s s [] := by
  obtain ⟨passed, -, h⟩ := exists_of_bind_eq_ok h
  cases h
  exact ⟨rfl, rfl, rfl, rfl, fun i => ⟨rfl, rfl, rfl⟩⟩

theorem Fits.jobs_le (h : Fits s₀ s es) (i : Nat) : s.jobs.count i ≤ 1 := by
  cases hx : s.exchanges[i]? with
  | none =>
    obtain ⟨-, -, hj⟩ := (h.exchange i).of_none hx
    omega
  | some x => exact ((h.exchange i).of_some hx).jobs_le

/-- **Without a pull nothing starts.** -/
theorem Fits.not_started (h : Fits s₀ s es) (hp : pulled es i = false) :
    s.jobs.count i = 0 ∧
      ∀ x, s.exchanges[i]? = some x → x.session? = none ∧ x.ending? = none := by
  cases hx : s.exchanges[i]? with
  | none =>
    refine ⟨((h.exchange i).of_none hx).2.2, fun x hx => ?_⟩
    cases hx
  | some x =>
    have hfits := (h.exchange i).of_some hx
    rw [hp] at hfits
    obtain ⟨hsession, hending, hj⟩ := hfits.session?
    refine ⟨hj, fun y hy => ?_⟩
    cases hy
    exact ⟨hsession, hending⟩

/-- **Behind a pull the session starts**, once the task that starts it has nothing to do any more. -/
theorem Fits.at_rest (h : Fits s₀ s es) (hr : s.canStart i = false) :
    s.jobs.count i = (pulled es i).toNat ∧
      (pulled es i = true → ∃ x v, s.exchanges[i]? = some x ∧ x.session? = some v) := by
  cases hx : s.exchanges[i]? with
  | none =>
    obtain ⟨hp, -, hj⟩ := (h.exchange i).of_none hx
    rw [hp, hj]
    exact ⟨rfl, Bool.noConfusion⟩
  | some x =>
    rw [canStart, hx] at hr
    obtain ⟨hj, hsession⟩ := ((h.exchange i).of_some hx).at_rest hr
    refine ⟨hj, fun hp => ?_⟩
    obtain ⟨v, hv⟩ := hsession hp
    exact ⟨x, v, rfl, hv⟩

/-- Numbers of which each stands in a list at most once are as many as there are. -/
theorem length_eq_countP_range {l : List Nat} {n : Nat} {p : Nat → Bool}
    (hp : ∀ i, n ≤ i → p i = false) (h : ∀ i, l.count i = (p i).toNat) :
    l.length = (List.range n).countP p := by
  have hperm : l.Perm ((List.range n).filter p) := by
    rw [List.perm_iff_count]
    intro i
    have hnodup : ((List.range n).filter p).Nodup := List.nodup_range.filter p
    rw [h i, hnodup.count]
    by_cases hi : i < n
    · cases hpi : p i <;> simp [hi, hpi]
    · simp [hp i (by omega), hi]
  rw [hperm.length_eq, List.countP_eq_length_filter]

/-- **As many sessions as bodies that were pulled**, once none of these tasks has anything to do. -/
theorem Fits.started_eq (h : Fits s₀ s es) (hr : ∀ i, s.canStart i = false) :
    s.started = (List.range s.exchanges.length).countP (pulled es) := by
  have habsent (i : Nat) (hi : s.exchanges.length ≤ i) : pulled es i = false :=
    ((h.exchange i).of_none (List.getElem?_eq_none hi)).1
  rw [h.started]
  exact length_eq_countP_range habsent fun i => (h.at_rest (hr i)).1

/-- **Sessions follow the first pull**, for any number of requests, in whatever order they come, their
bodies are pulled or go away, and the tasks that start the sessions have their turns.

* There is one exchange for each request that is accepted.
* When none of these tasks can go on, as many sessions were started as there are exchanges whose body
  was pulled.  Each of those has a session, and its handler was given to the workers once.
* At no time a handler was given to the workers twice, and whatever workers are given these handlers,
  in whatever order, execute each of them at most once.
* Without a pull there is no session and no handler was given to the workers; and a body that goes
  away before it is pulled is never pulled. -/
theorem sessions_follow_pulls (settings : Settings) (routes : Routes Handler) (s₀ s : Service)
    (es : List Event) (h₀ : create settings routes = .ok s₀) (h : s₀.run es = some s) :
    s.exchanges.length = es.countP (Event.isAccepted s₀) ∧
    ((∀ i, s.canStart i = false) →
      s.started = (List.range s.exchanges.length).countP (pulled es) ∧
      ∀ i, pulled es i = true →
        s.jobs.count i = 1 ∧ ∃ e v, s.exchanges[i]? = some e ∧ e.session? = some v) ∧
    (∀ i, s.jobs.count i ≤ 1) ∧
    (∀ name core w, Workers.Reachable name core w →
      (w.submissions.map Submission.job).Subperm s.jobs →
      ∀ i, w.executions i ≤ s.jobs.count i) ∧
    (∀ i, pulled es i = false → s.jobs.count i = 0 ∧
      ∀ e, s.exchanges[i]? = some e → e.session? = none ∧ e.ending? = none) ∧
    ∀ fs i gs, es = fs ++ .leave i :: gs → pulled fs i = false → pulled es i = false := by
  have hnew : Fits s₀ s₀ [] := .of_create h₀
  have hfits : Fits s₀ s es := hnew.run h
  refine ⟨hfits.accepted, fun hrest => ⟨hfits.started_eq hrest, fun i hp => ?_⟩, hfits.jobs_le, ?_,
    fun i => hfits.not_started, ?_⟩
  · obtain ⟨hcount, hsession⟩ := hfits.at_rest (hrest i)
    rw [hp] at hcount
    exact ⟨hcount, hsession hp⟩
  · intro name core w hw hsub i
    exact Nat.le_trans (hw.executions_le i) (hsub.count_le i)
  · rintro fs i gs rfl hp
    rw [run, List.foldlM_append] at h
    obtain ⟨u, hu, h⟩ := Option.bind_eq_some_iff.1 h
    obtain ⟨v, hv, h⟩ := Option.bind_eq_some_iff.1 h
    have hgone : Fits s₀ v (fs ++ [.leave i]) := (hnew.run hu).step hv
    rw [← List.singleton_append, ← List.append_assoc]
    refine hgone.not_pulled ?_ ?_ h
    · rw [pulled_append, hp]
      rfl
    · rw [left_append]
      simp [Event.isLeave]

/-- Of three bodies one is pulled and goes away at once, one goes away without a pull, and one is left
alone.  Then the tasks that start the sessions have their turns, and the only session that starts is
that of the first one.  A worker executes its handler once. -/
theorem sessions_follow_pulls_of_gone_bodies :
    let settings : Settings := { Settings.base 1 with token := some "s3cret" }
    let routes : Routes Handler := { entries := [("job", fun _ => .read (.keep (.finish "")))] }
    let r : Http.Request := {
      method := "POST", path := "/api/toolbox/v1/job", credential := some "toolbox s3cret"
      body := { pieces := ["null".toUTF8] } }
    let es : List Event := [.receive r, .receive r, .receive r, .leave 1, .pull 0, .leave 0,
      .start 1, .start 0, .start 2]
    ∃ s₀ s w, create settings routes = .ok s₀ ∧ s₀.run es = some s ∧
      (∀ i, s.canStart i = false) ∧ s.exchanges.length = 3 ∧ s.jobs = [0] ∧
      s.started = (List.range s.exchanges.length).countP (pulled es) ∧ s.started = 1 ∧
      s.jobs.count 1 = 0 ∧ Workers.Reachable "jobs" 1 w ∧ w.executions 0 = 1 ∧
      w.executions 0 ≤ s.jobs.count 0 := by
  intro settings routes r es
  let s₀ : Service := { settings, routes }
  let a : Accepted := { prepared := ⟨"job", .keep (.finish "")⟩, interval := settings.heartbeat }
  let s₁ : Service := {
    settings, routes, exchanges := [.ofAccepted a 0, .ofAccepted a 0, .ofAccepted a 0] }
  have h₀ : create settings routes = .ok s₀ := by
    have hcheck : settings.check = .ok () := by decide +kernel
    rw [create, hcheck]
    rfl
  have hresult : (HeldReply.receive settings routes r).result = .ok a := by
    have hj : judge settings routes r.method r.path r.credential = .authorized := by
      decide +kernel
    have hbytes : Json.readBytes (["null".toUTF8].foldl (· ++ ·) .empty) = some .null := by rfl
    have hv : r.body.Holds .null := ⟨_, rfl, hbytes⟩
    have hfits : endsIn (beforeQuery r.path.toList) "job".toList = true := by decide +kernel
    have hfind : routes.find? r.path = some ("job", fun _ => .read (.keep (.finish ""))) :=
      List.find?_cons_of_pos hfits
    have hl : routes.lookup r.path = .ok ("job", fun _ => .read (.keep (.finish ""))) := by
      rw [Routes.lookup, hfind]
    rw [receive_of_authorized hj, accept_of_holds hv hl]
    rfl
  have hreceived : s₀.run [.receive r, .receive r, .receive r] = some s₁ := by
    have hone (xs : List Exchange) : step { s₀ with exchanges := xs } (.receive r) =
        some { s₀ with exchanges := xs ++ [.ofAccepted a 0] } :=
      congrArg some (handle_of_ok (s := { s₀ with exchanges := xs }) hresult)
    have hfirst : s₀.step (.receive r) = some { s₀ with exchanges := [.ofAccepted a 0] } := hone []
    rw [run, List.foldlM_cons, hfirst, Option.bind_eq_bind, Option.bind_some, List.foldlM_cons,
      hone, Option.bind_eq_bind, Option.bind_some, List.foldlM_cons, hone]
    rfl
  have hrest : (s₁.run [.leave 1, .pull 0, .leave 0, .start 1, .start 0, .start 2]).map
      (fun s => (s.exchanges.length, s.jobs, s.started, s.exchanges.any Exchange.canStart)) =
      some (3, [0], 1, false) := by decide +kernel
  obtain ⟨s, hs, hend⟩ := Option.map_eq_some_iff.1 hrest
  simp only [Prod.mk.injEq] at hend
  obtain ⟨hlength, hjobs, hstarted, hquiet⟩ := hend
  have h : s₀.run es = some s := by
    show s₀.run ([.receive r, .receive r, .receive r] ++
      [.leave 1, .pull 0, .leave 0, .start 1, .start 0, .start 2]) = some s
    rw [run, List.foldlM_append]
    exact Option.bind_eq_some_iff.2 ⟨s₁, hreceived, hs⟩
  have hstill (i : Nat) : s.canStart i = false := by
    rw [canStart]
    cases hx : s.exchanges[i]? with
    | none => rfl
    | some x => exact Bool.eq_false_iff.2 (List.any_eq_false.1 hquiet x (List.mem_of_getElem? hx))
  let begun : Workers := ({ name := "jobs" } : Workers).spawnCore 1
  let w : Workers := { begun with
    active := 1, submissions := [.queued 0], workers := [⟨true, .running 0⟩] }
  have hbegun : Workers.Reachable "jobs" 1 begun := .start rfl
  have hw : Workers.Reachable "jobs" 1 w :=
    (hbegun.submit 0).steps [.submit 0, .receive 0, .proceed 0] rfl
  have hgiven : (w.submissions.map Submission.job).Subperm s.jobs := by
    rw [hjobs]
    exact List.Subperm.refl [0]
  obtain ⟨-, hcount, -, hworkers, hnone, -⟩ := sessions_follow_pulls settings routes s₀ s es h₀ h
  exact ⟨s₀, s, w, h₀, h, hstill, hlength, hjobs, (hcount hstill).1, hstarted, (hnone 1 rfl).1, hw,
    rfl, hworkers "jobs" 1 w hw hgiven 0⟩

end Service

end HeldReply
