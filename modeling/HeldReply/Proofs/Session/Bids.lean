import HeldReply.Proofs.Session.Others

/-!
# Who answered first

Of all answers to a callback the first one counts, and if the last callback goes before anybody
answered, then that does.  Beside a run all of this can be told in its order, whoever did it: the
handler, a clean-up, or somebody who was handed a callback.  The first of these bids is the outcome
that counts.

* `Promise.Bid`, `Bid.first?` — an answer, or the last callback's going, and the outcome of **the first**
  of some;
* `Desk.bids`, `Desk.cleanupBids`, `Desk.disposalBids`, `Desk.executeBids` — **what a program bids**, a
  clean-up, a disposal and a handler;
* `Deed.bids`, `Scene.Bids`, `Scene.Bidden` — what others bid, and **all bids of a run**, in order;
* `Scene.Bidden.answer?_eq` — **the outcome that counts is that of the first bid**.
-/

namespace HeldReply

open Recorded

/-! ### Bids -/

/-- What somebody does with a callback **to settle** a promise. -/
inductive Promise.Bid where
  | answer (o : Outcome)
  /-- The last callback goes. -/
  | allGone

open Promise (Bid)

namespace Promise

/-- The outcome that comes of a bid, if it is the first. -/
def Bid.outcome : Bid → Outcome
  | .answer o => o
  | .allGone => .unanswered

/-- The outcome of the **first** of some bids. -/
def Bid.first? (bs : List Bid) : Option Outcome :=
  bs.head?.map Bid.outcome

@[simp] theorem Bid.first?_nil : Bid.first? [] = none := rfl

@[simp] theorem Bid.first?_cons (b : Bid) (bs : List Bid) : Bid.first? (b :: bs) = some b.outcome :=
  rfl

/-- Of two rows of bids the second one counts only if nobody bid in the first. -/
theorem Bid.first?_append (bs cs : List Bid) :
    Bid.first? (bs ++ cs) = (Bid.first? bs).or (Bid.first? cs) := by
  cases bs <;> rfl

theorem Bid.first?_eq_some_iff {bs : List Bid} {o : Outcome} :
    Bid.first? bs = some o ↔ ∃ b later, bs = b :: later ∧ b.outcome = o := by
  cases bs <;> simp

/-- What is bid when a callback **is let go**. -/
def lastBid (p : Promise) : List Bid :=
  if p.holders - 1 = 0 then [.allGone] else []

variable {p : Promise}

theorem answer?_claim (p : Promise) (o : Outcome) : (p.claim o).1.answer? = p.answer?.or (some o) := by
  unfold claim answer?
  cases hs : p.stage <;> simp [hs]

theorem answer?_send (p : Promise) : p.send.answer? = p.answer? := by
  unfold send answer?
  cases hs : p.stage <;> simp [hs, settle]

theorem answer?_deliver (p : Promise) (o : Outcome) :
    (p.deliver o).1.answer? = p.answer?.or (some o) :=
  (p.claim o).1.answer?_send.trans (p.answer?_claim o)

theorem answer?_release (p : Promise) :
    p.release.answer? = p.answer?.or (Bid.first? p.lastBid) := by
  unfold release answer? lastBid
  cases hs : p.stage with
  | unclaimed => by_cases hn : p.holders - 1 = 0 <;> simp [hn, settle, Bid.outcome]
  | claimed | sent | broken => simp

theorem answer?_poll (p : Promise) : p.poll.1.answer? = p.answer? := by
  rw [answer?, answer?, p.poll_outcome.2]

end Promise

/-! ### Programs and disposals -/

namespace Desk

variable {ω : Type} [Surroundings ω] {d e : Desk ω} {before after : Outside}

/-- **What a program bids**, in order, given what comes of its calls for a disposal and what they bid.
A clean-up that comes too late bids on the spot. -/
def bids (dispose : Desk ω → Desk ω × Bool) (told : Desk ω → List Bid) : Program → Desk ω → List Bid
  | .finish _, _ | .crash _, _ => []
  | .deliver o next, d => .answer o :: bids dispose told (next (d.deliver o).2) (d.deliver o).1
  | .keep next, d => bids dispose told next d.keep
  | .release next, d => d.promise.lastBid ++ bids dispose told next d.release
  | .inspect next, d => bids dispose told (next d.view) d
  | .register cleanup next, d =>
    if d.scope.isDisposed then
      bids dispose told cleanup d ++ bids dispose told (next false) (interpret dispose cleanup d).1
    else bids dispose told (next true) (d.push (.program cleanup))
  | .dispose next, d => told d ++ bids dispose told (next (dispose d).2) (dispose d).1
  | .note text next, d => bids dispose told next (d.note text)

/-- What a **clean-up** bids. -/
def cleanupBids (d : Desk ω) : Cleanup → List Bid
  | .closeLink | .cancelBeat => []
  | .program p => bids (fun d => (d, false)) (fun _ => []) p d

/-- What clean-ups bid that run one after another. -/
def cleanupsBids : List Cleanup → Desk ω → List Bid
  | [], _ => []
  | k :: ks, d => d.cleanupBids k ++ cleanupsBids ks (d.runCleanup k)

/-- What a **disposal** bids. -/
def disposalBids (d : Desk ω) : List Bid :=
  match d.begin with
  | some (d, cleanups) => cleanupsBids cleanups d
  | none => []

/-- What a **handler** bids: a crash counts as an answer, and in the end its callback goes. -/
def executeBids (d : Desk ω) (name : String) (p : Program) : List Bid :=
  bids dispose disposalBids p d ++
    match d.run p with
    | (d, .finished _) => d.promise.lastBid
    | (d, .crashed c) => .answer (.error (crashed name c)) ::
        (d.deliver (.error (crashed name c))).1.promise.lastBid

/-- **A program**: its first bid counts, if nobody bid before. -/
theorem answer?_interpret {dispose : Desk ω → Desk ω × Bool} {told : Desk ω → List Bid}
    (hd : ∀ d, (dispose d).1.promise.answer? = d.promise.answer?.or (Bid.first? (told d)))
    (p : Program) (d : Desk ω) : (interpret dispose p d).1.promise.answer? =
      d.promise.answer?.or (Bid.first? (bids dispose told p d)) := by
  induction p generalizing d with
  | finish | crash => exact Option.or_none.symm
  | deliver o next ih =>
    have hans : (d.deliver o).1.promise.answer? = d.promise.answer?.or (some o) :=
      d.promise.answer?_deliver o
    rw [interpret, bids, ih, hans, Option.or_assoc]
    rfl
  | keep next ih => exact ih d.keep
  | release next ih =>
    have hans : d.release.promise.answer? = d.promise.answer?.or (Bid.first? d.promise.lastBid) :=
      d.promise.answer?_release
    rw [interpret, bids, ih, hans, Option.or_assoc, Bid.first?_append]
  | inspect next ih => exact ih _ d
  | register cleanup next ihc ihn =>
    rw [interpret, bids]
    split
    · rw [ihn, ihc, Option.or_assoc, Bid.first?_append]
    · exact ihn true (d.push (.program cleanup))
  | dispose next ih => rw [interpret, bids, ih, hd, Option.or_assoc, Bid.first?_append]
  | note text next ih => exact ih (d.note text)

theorem answer?_runCleanup (d : Desk ω) (k : Cleanup) : (d.runCleanup k).promise.answer? =
    d.promise.answer?.or (Bid.first? (d.cleanupBids k)) := by
  cases k with
  | closeLink | cancelBeat => exact Option.or_none.symm
  | program p => exact answer?_interpret (fun _ => Option.or_none.symm) p d

theorem answer?_runCleanups (ks : List Cleanup) (d : Desk ω) :
    (ks.foldl runCleanup d).promise.answer? =
      d.promise.answer?.or (Bid.first? (cleanupsBids ks d)) := by
  induction ks generalizing d with
  | nil => exact Option.or_none.symm
  | cons k ks ih =>
    rw [List.foldl_cons, ih, answer?_runCleanup, Option.or_assoc, cleanupsBids, Bid.first?_append]

/-- **A disposal**: the first bid of its clean-ups counts, if nobody bid before. -/
theorem answer?_dispose (d : Desk ω) : d.dispose.1.promise.answer? =
    d.promise.answer?.or (Bid.first? d.disposalBids) := by
  rcases d.begin_cases with ⟨hd, hb⟩ | ⟨-, hb⟩
  · rw [dispose_of_isDisposed hd, disposalBids, hb]
    exact Option.or_none.symm
  · rw [dispose, disposalBids, hb]
    exact answer?_runCleanups _ _

/-- **A handler**: its first bid counts, if nobody bid before. -/
theorem answer?_execute (d : Desk ω) (name : String) (p : Program) :
    (d.execute name p).1.promise.answer? =
      d.promise.answer?.or (Bid.first? (d.executeBids name p)) := by
  have hrun : (d.run p).1.promise.answer? =
      d.promise.answer?.or (Bid.first? (bids dispose disposalBids p d)) :=
    answer?_interpret answer?_dispose p d
  unfold execute executeBids
  rw [Bid.first?_append, ← Option.or_assoc, ← hrun]
  rcases d.run p with ⟨e, remark | c⟩
  · exact e.promise.answer?_release
  · have hcrash := e.promise.answer?_deliver (.error (crashed name c))
    refine (Promise.answer?_release _).trans ?_
    show (e.promise.deliver _).1.answer?.or _ = _
    rw [hcrash, Option.or_assoc]
    rfl

end Desk

/-! ### Others -/

/-- What a step of others **bids**. -/
def Deed.bids {ω σ : Type} [Surroundings ω] (d : Desk ω) (outside : Outside) : Deed σ → List Bid
  | .claim o => [.answer o]
  | .release => d.promise.lastBid
  | .runHere p => d.cleanupBids (.program p)
  | .clean =>
    match outside with
    | .draining (k :: _) => d.cleanupBids k
    | _ => []
  | _ => []

/-- **Whatever others do**: what they bid counts, if nobody bid before. -/
theorem Desk.answer?_move {ω σ : Type} [Surroundings ω] {d e : Desk ω} {before after : Outside}
    {m : Move} (h : d.move before m = some (e, after)) :
    e.promise.answer? = d.promise.answer?.or (Bid.first? ((m.deed : Deed σ).bids d before)) := by
  cases m with
  | claim o =>
    cases h
    exact Promise.answer?_claim _ o
  | send =>
    cases h
    exact (Promise.answer?_send _).trans Option.or_none.symm
  | release =>
    cases h
    exact Promise.answer?_release _
  | share | cancel =>
    cases h
    exact Option.or_none.symm
  | push p =>
    rw [move] at h
    split at h <;> cases h
    exact Option.or_none.symm
  | runHere p =>
    rw [move] at h
    split at h <;> cases h
    exact d.answer?_runCleanup (.program p)
  | clean =>
    unfold move at h
    dsimp only at h
    split at h <;> cases h
    exact d.answer?_runCleanup _
  | raise | take | announce =>
    unfold move at h
    dsimp only at h
    split at h <;> cases h
    exact Option.or_none.symm

/-! ### Turns and runs -/

/-- **A turn**: the first bid of its disposals counts, if nobody bid before. -/
theorem Session.Leads.answer?_eq {σ : Type} [Link σ] {s v : Session σ}
    {ds : List (Desk (Line σ))} (h : s.Leads ds v) : v.desk.promise.answer? =
      s.desk.promise.answer?.or (Bid.first? (ds.flatMap Desk.disposalBids)) := by
  induction h with
  | refl => exact Option.or_none.symm
  | start | ask | closeLink | cancel | turn => assumption
  | hear _ ih => exact (Promise.answer?_poll _).trans ih
  | @dispose v ds _ ih =>
    rw [List.flatMap_append, List.flatMap_singleton, Bid.first?_append, ← Option.or_assoc, ← ih]
    exact v.desk.answer?_dispose

namespace Scene

variable {σ : Type} [Link σ] {l : σ} {now id : Nat} {interval : Span} {p : Prepared}
  {always : Scene σ → Prop} {c v : Scene σ} {bs : List Bid}

/-- What a **step** bids: in a task's turn, what the disposals for which it calls do. -/
def Bids (c v : Scene σ) (bs : List Bid) : Deed σ → Prop
  | .poll _ => ∃ ds, c.session.Leads ds v.session ∧ bs = ds.flatMap Desk.disposalBids
  | d => bs = d.bids c.session.desk c.outside

/-- **All bids of a run**, in order, from the start of the session on. -/
inductive Bidden (l : σ) (now id : Nat) (interval : Span) (p : Prepared) :
    Scene σ → List Bid → Prop
  | start : Bidden l now id interval p (launch l now id interval p)
      ((Session.unexecuted { now, link := { link := l : Recorded σ } } id interval p).desk.executeBids
        p.name p.program)
  | step {c v : Scene σ} {bs cs : List Bid} (h : Bidden l now id interval p c bs) (d : Deed σ)
      (hs : c.step d = some v) (hb : c.Bids v cs d) : Bidden l now id interval p v (bs ++ cs)

/-- Every step bids something, or nothing. -/
theorem exists_bids {d : Deed σ} (hs : c.step d = some v) : ∃ bs, c.Bids v bs d := by
  cases d with
  | poll t =>
    cases hs
    obtain ⟨ds, hl⟩ := c.session.leads_poll t
    exact ⟨_, ds, hl, rfl⟩
  | _ => exact ⟨_, rfl⟩

/-- Every run has its bids. -/
theorem Reachable.exists_bidden (h : Reachable (launch l now id interval p) always c) :
    ∃ bs, Bidden l now id interval p c bs := by
  induction h with
  | start => exact ⟨_, .start⟩
  | step _ d hs _ ih =>
    obtain ⟨bs, hb⟩ := ih
    obtain ⟨cs, hc⟩ := exists_bids hs
    exact ⟨bs ++ cs, hb.step d hs hc⟩

/-- Others do in a scene what they do alone. -/
theorem answer?_deed (m : Desk.Move) (hs : c.step m.deed = some v)
    (hb : bs = (m.deed : Deed σ).bids c.session.desk c.outside) :
    v.session.desk.promise.answer? = c.session.desk.promise.answer?.or (Bid.first? bs) := by
  rw [Desk.step_deed] at hs
  obtain ⟨⟨desk, outside⟩, hm, rfl⟩ := Option.map_eq_some_iff.1 hs
  rw [hb]
  exact Desk.answer?_move hm

/-- **A step**: its first bid counts, if nobody bid before. -/
theorem answer?_step {d : Deed σ} (hs : c.step d = some v) (hb : c.Bids v bs d) :
    v.session.desk.promise.answer? = c.session.desk.promise.answer?.or (Bid.first? bs) := by
  cases d with
  | poll t =>
    cases hs
    obtain ⟨ds, hl, rfl⟩ := hb
    exact hl.answer?_eq
  | tick now =>
    cases hb
    rw [step] at hs
    split at hs <;> cases hs
    exact Option.or_none.symm
  | link l =>
    cases hb
    cases hs
    exact Option.or_none.symm
  | claim o => exact answer?_deed (.claim o) hs hb
  | send => exact answer?_deed .send hs hb
  | share => exact answer?_deed .share hs hb
  | release => exact answer?_deed .release hs hb
  | cancel => exact answer?_deed .cancel hs hb
  | push p => exact answer?_deed (.push p) hs hb
  | runHere p => exact answer?_deed (.runHere p) hs hb
  | raise => exact answer?_deed .raise hs hb
  | take => exact answer?_deed .take hs hb
  | clean => exact answer?_deed .clean hs hb
  | announce => exact answer?_deed .announce hs hb

/-- **The outcome that counts is that of the first bid**, whoever made it. -/
theorem Bidden.answer?_eq (h : Bidden l now id interval p c bs) :
    c.session.desk.promise.answer? = Bid.first? bs := by
  induction h with
  | start => exact Desk.answer?_execute _ p.name p.program
  | step _ d hs hb ih => rw [answer?_step hs hb, ih, Bid.first?_append]

end Scene

end HeldReply
