import GraphDissect.Fuzzing.Feedback

/-!
# Every mark is counted once

A guard or an address is marked once by one call, whatever runs beside it.  A
mark is with its caller, in the counters of a thread, with the collector of the
thread or in the totals, or it is lost because a process died between the mark
and its report or because a counter was cleared after it had been read.
-/

namespace GraphDissect.Fuzzing.Feedback

open Library

/-- The counts that a collector has taken. -/
def held (counter : FeedbackCounter) : Collector → Nat
  | .idle => 0
  | .loading _ got => got counter
  | .clearing _ _ got => got counter

def share (counter : FeedbackCounter) (thread : FeedbackThread) : Nat :=
  thread.unread counter + held counter thread.collector

def pendingReport (counter : FeedbackCounter) : Hook → Nat
  | .reporting other => if other = counter then 1 else 0
  | _ => 0

/-- Only the counter in front of the collector has been read and not cleared. -/
structure CollectorOk (thread : FeedbackThread) : Prop where
  within : ∀ counter, thread.copied counter ≤ thread.pid counter
  order : match thread.collector with
    | .idle => ∀ counter, thread.copied counter = 0
    | .loading todo got => todo.Nodup ∧ (∀ counter ∈ todo, got counter = 0) ∧
        ∀ counter, thread.copied counter = 0
    | .clearing current todo got => (current :: todo).Nodup ∧ (∀ counter ∈ todo, got counter = 0) ∧
        ∀ counter, counter ≠ current → thread.copied counter = 0

theorem CollectorOk.add {thread : FeedbackThread} (ok : CollectorOk thread)
    (counter : FeedbackCounter) (sum : Nat) : CollectorOk (thread.add counter sum) where
  within := by
    intro other
    have within := ok.within other
    by_cases same : other = counter
    · subst same
      simp only [FeedbackThread.add, Function.update_self]
      omega
    · simpa [FeedbackThread.add, same] using within
  order := ok.order

theorem isNew_of_isPlace {counter : FeedbackCounter} (isPlace : counter.isPlace = true) :
    counter.isNew = true := by
  cases counter <;> first | rfl | cases isPlace

section Account

variable {Thread Caller : Type} [DecidableEq Thread] [DecidableEq Caller] [Fintype Thread]
  [Fintype Caller] {s next : Feedback Thread Caller} {counter : FeedbackCounter}

def marked (s : Feedback Thread Caller) (counter : FeedbackCounter) : Nat :=
  s.marks.countP fun entry => entry.1 = counter

/-- Where the marks are. -/
structure Accounted (s : Feedback Thread Caller) : Prop where
  balance : ∀ counter, counter.isPlace = true → s.marked counter =
    s.softCnt counter + s.lost counter + ∑ t, share counter (s.threads t) +
      ∑ caller, pendingReport counter (s.hooks caller)
  collectors : ∀ t, CollectorOk (s.threads t)

omit [DecidableEq Thread] [DecidableEq Caller] in
theorem accounted_start : Accounted (start : Feedback Thread Caller) where
  balance := by
    intro counter _
    simp [marked, start, share, FeedbackThread.unread, held, pendingReport]
  collectors := fun _ => ⟨fun _ => Nat.le_refl 0, fun _ => rfl⟩

omit [DecidableEq Caller] [Fintype Thread] [Fintype Caller] in
theorem forall_setThread {holds : FeedbackThread → Prop} (others : ∀ t, holds (s.threads t)) {t : Thread}
    {thread : FeedbackThread} (here : holds thread) : ∀ other, holds ((s.setThread t thread).threads other) := by
  intro other
  by_cases same : other = t
  · subst same
    simpa [Feedback.setThread] using here
  · simpa [Feedback.setThread, same] using others other

omit [DecidableEq Thread] in
theorem Accounted.setHook (accounted : s.Accounted) {caller : Caller} {hook : Hook}
    (same : ∀ counter, pendingReport counter hook = pendingReport counter (s.hooks caller)) :
    (s.setHook caller hook).Accounted where
  balance := by
    intro counter isPlace
    refine (accounted.balance counter isPlace).trans ?_
    exact (sum_update_balance (pendingReport counter) (congrArg (_ + ·) (same counter))).symm
  collectors := accounted.collectors

omit [DecidableEq Caller] in
theorem Accounted.setThread (accounted : s.Accounted) {t : Thread} {thread : FeedbackThread}
    (same : ∀ counter, counter.isPlace = true → share counter thread = share counter (s.threads t))
    (ok : CollectorOk thread) : (s.setThread t thread).Accounted where
  balance := by
    intro counter isPlace
    refine (accounted.balance counter isPlace).trans ?_
    refine congrArg (· + _) ?_
    exact (sum_update_balance (share counter) (congrArg (_ + ·) (same counter isPlace))).symm
  collectors := forall_setThread accounted.collectors ok

omit [DecidableEq Thread] in
theorem Accounted.mark (accounted : s.Accounted) {caller : Caller} {place : Nat}
    (quiet : ∀ counter, pendingReport counter (s.hooks caller) = 0) :
    (s.mark caller counter place).Accounted where
  balance := by
    intro other isPlace
    have before := accounted.balance other isPlace
    have moved := sum_update_add (pendingReport other) s.hooks caller (.reporting counter)
    rw [quiet] at moved
    have grown : (s.mark caller counter place).marked other =
        s.marked other + pendingReport other (.reporting counter) := by
      unfold marked Feedback.mark
      rw [List.countP_append]
      by_cases same : counter = other <;> simp [pendingReport, same]
    rw [grown]
    change _ = s.softCnt other + s.lost other + ∑ t, share other (s.threads t) +
      ∑ c, pendingReport other (Function.update s.hooks caller (.reporting counter) c)
    omega
  collectors := accounted.collectors

theorem Accounted.report (accounted : s.Accounted) {caller : Caller} {t : Thread}
    (here : s.hooks caller = .reporting counter) :
    ((s.setHook caller .idle).setThread t ((s.threads t).add counter 1)).Accounted where
  balance := by
    intro other isPlace
    have before := accounted.balance other isPlace
    have left := sum_update_add (pendingReport other) s.hooks caller .idle
    have came := sum_update_add (share other) s.threads t ((s.threads t).add counter 1)
    have within := (accounted.collectors t).within other
    have grown : share other ((s.threads t).add counter 1) =
        share other (s.threads t) + pendingReport other (.reporting counter) := by
      by_cases same : counter = other
      · subst same
        simp only [share, FeedbackThread.unread, FeedbackThread.add, Function.update_self,
          pendingReport, if_pos]
        omega
      · simp [share, FeedbackThread.unread, FeedbackThread.add, pendingReport, same, Ne.symm same]
    rw [here] at left
    change s.marked other = s.softCnt other + s.lost other +
      ∑ o, share other (Function.update s.threads t ((s.threads t).add counter 1) o) +
      ∑ c, pendingReport other (Function.update s.hooks caller .idle c)
    have none : pendingReport other .idle = 0 := rfl
    omega
  collectors := forall_setThread accounted.collectors ((accounted.collectors t).add counter 1)

omit [DecidableEq Thread] in
theorem Accounted.die (accounted : s.Accounted) {caller : Caller}
    (here : s.hooks caller = .reporting counter) :
    ((s.setHook caller .idle).lose counter 1).Accounted where
  balance := by
    intro other isPlace
    have before := accounted.balance other isPlace
    have left := sum_update_add (pendingReport other) s.hooks caller .idle
    have none : pendingReport other .idle = 0 := rfl
    rw [here] at left
    change s.marked other = s.softCnt other +
      Function.update s.lost counter (s.lost counter + 1) other + ∑ t, share other (s.threads t) +
      ∑ c, pendingReport other (Function.update s.hooks caller .idle c)
    by_cases same : other = counter
    · subst same
      have one : pendingReport other (.reporting other) = 1 := if_pos rfl
      rw [Function.update_self]
      omega
    · have zero : pendingReport other (.reporting counter) = 0 := if_neg (Ne.symm same)
      rw [Function.update_of_ne same]
      omega
  collectors := accounted.collectors

omit [DecidableEq Caller] in
theorem Accounted.clearCounter (accounted : s.Accounted) (t : Thread) {thread : FeedbackThread}
    (pid : thread.pid = ((s.threads t).clear counter).pid)
    (copied : thread.copied = ((s.threads t).clear counter).copied)
    (got : ∀ other, held other thread.collector = held other (s.threads t).collector)
    (ok : CollectorOk thread) :
    ((s.setThread t thread).lose counter ((s.threads t).unread counter)).Accounted where
  balance := by
    intro other isPlace
    have before := accounted.balance other isPlace
    have moved := sum_update_add (share other) s.threads t thread
    change s.marked other = s.softCnt other +
      Function.update s.lost counter (s.lost counter + (s.threads t).unread counter) other +
      ∑ o, share other (Function.update s.threads t thread o) +
      ∑ c, pendingReport other (s.hooks c)
    by_cases same : other = counter
    · subst same
      have empty : share other thread = held other (s.threads t).collector := by
        simp [share, FeedbackThread.unread, pid, copied, FeedbackThread.clear, got]
      have full : share other (s.threads t) =
        (s.threads t).unread other + held other (s.threads t).collector := rfl
      rw [Function.update_self]
      omega
    · have kept : share other thread = share other (s.threads t) := by
        simp [share, FeedbackThread.unread, pid, copied, FeedbackThread.clear, got, same]
      rw [Function.update_of_ne same]
      omega
  collectors := forall_setThread accounted.collectors ok

omit [DecidableEq Caller] in
theorem Accounted.clearNewCov (accounted : s.Accounted) (t : Thread) :
    ((s.setThread t ((s.threads t).clear counter)).lose counter
      ((s.threads t).unread counter)).Accounted := by
  refine accounted.clearCounter t rfl rfl (fun _ => rfl) ⟨fun other => ?_, ?_⟩
  · have within := (accounted.collectors t).within other
    by_cases same : other = counter
    · subst same
      simp [FeedbackThread.clear]
    · simpa [FeedbackThread.clear, same] using within
  · have cleared : ∀ other, (s.threads t).copied other = 0 →
        Function.update (s.threads t).copied counter 0 other = 0 := by
      intro other zero
      by_cases same : other = counter
      · subst same
        exact Function.update_self ..
      · rwa [Function.update_of_ne same]
    have order := (accounted.collectors t).order
    simp only [FeedbackThread.clear]
    cases here : (s.threads t).collector with
    | idle =>
        rw [here] at order
        exact fun other => cleared other (order other)
    | loading todo got =>
        rw [here] at order
        exact ⟨order.1, order.2.1, fun other => cleared other (order.2.2 other)⟩
    | clearing current todo got =>
        rw [here] at order
        exact ⟨order.1, order.2.1, fun other differ => cleared other (order.2.2 other differ)⟩

omit [DecidableEq Caller] in
theorem Accounted.load (accounted : s.Accounted) {t : Thread} {todo : List FeedbackCounter}
    {got : FeedbackCounter → Nat} (here : (s.threads t).collector = .loading (counter :: todo) got) :
    (s.setThread t { s.threads t with
      collector := .clearing counter todo
        (Function.update got counter ((s.threads t).pid counter))
      copied := Function.update (s.threads t).copied counter ((s.threads t).pid counter) }).Accounted := by
  have order := (accounted.collectors t).order
  rw [here] at order
  obtain ⟨distinct, fresh, uncopied⟩ := order
  refine accounted.setThread (fun other _ => ?_) ⟨fun other => ?_, ⟨distinct, ?_, ?_⟩⟩
  · simp only [share, FeedbackThread.unread, here, held]
    by_cases same : other = counter
    · subst same
      rw [Function.update_self, Function.update_self, uncopied, fresh other List.mem_cons_self]
      omega
    · rw [Function.update_of_ne same, Function.update_of_ne same]
  · by_cases same : other = counter
    · subst same
      simp
    · simpa [same] using (accounted.collectors t).within other
  · intro other member
    have differ : other ≠ counter := by
      rintro rfl
      exact (List.nodup_cons.mp distinct).1 member
    rw [Function.update_of_ne differ]
    exact fresh other (List.mem_cons_of_mem counter member)
  · intro other differ
    exact (Function.update_of_ne differ _ _).trans (uncopied other)

omit [DecidableEq Caller] in
theorem Accounted.clear (accounted : s.Accounted) {t : Thread} {todo : List FeedbackCounter}
    {got : FeedbackCounter → Nat} (here : (s.threads t).collector = .clearing counter todo got) :
    ((s.setThread t { (s.threads t).clear counter with collector := .loading todo got }).lose counter
      ((s.threads t).unread counter)).Accounted := by
  have order := (accounted.collectors t).order
  rw [here] at order
  obtain ⟨distinct, fresh, uncopied⟩ := order
  refine accounted.clearCounter t rfl rfl (fun other => by rw [here]; rfl) ⟨fun other => ?_, ?_⟩
  · by_cases same : other = counter
    · subst same
      simp [FeedbackThread.clear]
    · simpa [FeedbackThread.clear, same] using (accounted.collectors t).within other
  · refine ⟨(List.nodup_cons.mp distinct).2, fresh, fun other => ?_⟩
    by_cases same : other = counter
    · subst same
      exact Function.update_self ..
    · exact (Function.update_of_ne same _ _).trans (uncopied other same)

omit [DecidableEq Caller] in
theorem Accounted.commit (accounted : s.Accounted) {t : Thread} {got : FeedbackCounter → Nat}
    (here : (s.threads t).collector = .loading [] got) (run : HwCnt) :
    ((s.perfFeedback got run).setCollector t .idle).Accounted where
  balance := by
    intro other isPlace
    have before := accounted.balance other isPlace
    have moved := sum_update_add (share other) s.threads t { s.threads t with collector := .idle }
    have gone : share other { s.threads t with collector := .idle } + got other =
        share other (s.threads t) := by
      simp only [share, here, held, FeedbackThread.unread]
      omega
    have isNew : other.isNew = true := isNew_of_isPlace isPlace
    unfold Feedback.perfFeedback
    dsimp only
    split
    · change s.marked other = (s.softCnt other + if other.isNew then got other else 0) + s.lost other +
        ∑ o, share other (Function.update s.threads t { s.threads t with collector := .idle } o) +
        ∑ c, pendingReport other (s.hooks c)
      rw [if_pos isNew]
      omega
    · next quiet =>
      have none : got other = 0 := by
        cases other with
        | newPC | newEdge => omega
        | newCmp | totalPC | totalEdge | totalCmp => cases isPlace
      change s.marked other = s.softCnt other + s.lost other +
        ∑ o, share other (Function.update s.threads t { s.threads t with collector := .idle } o) +
        ∑ c, pendingReport other (s.hooks c)
      omega
  collectors := by
    have order := (accounted.collectors t).order
    rw [here] at order
    have ok : CollectorOk { s.threads t with collector := .idle } :=
      ⟨(accounted.collectors t).within, order.2.2⟩
    unfold Feedback.perfFeedback
    dsimp only
    split
    · exact forall_setThread accounted.collectors ok
    · exact forall_setThread accounted.collectors ok

omit [DecidableEq Caller] in
theorem Accounted.add (accounted : s.Accounted) (t : Thread) (sum : Nat)
    (other : counter.isPlace = false) :
    (s.setThread t ((s.threads t).add counter sum)).Accounted := by
  refine accounted.setThread (fun place isPlace => ?_) ((accounted.collectors t).add counter sum)
  have differ : place ≠ counter := by
    rintro rfl
    cases isPlace.symm.trans other
  simp [share, FeedbackThread.unread, FeedbackThread.add, differ]

omit [DecidableEq Caller] in
theorem Accounted.acquire (accounted : s.Accounted) {t : Thread}
    (here : (s.threads t).collector = .idle) (soft : Bool) :
    (s.setCollector t (.loading (if soft then perfCounters else []) fun _ => 0)).Accounted := by
  have order := (accounted.collectors t).order
  rw [here] at order
  refine accounted.setThread (fun other _ => ?_) ⟨(accounted.collectors t).within, ?_, ?_, order⟩
  · simp [share, here, held, FeedbackThread.unread]
  · cases soft <;> decide
  · exact fun _ _ => rfl

omit [DecidableEq Thread] in
theorem Accounted.quiet (accounted : s.Accounted) {caller : Caller} {hook : Hook}
    (before : ∀ other, pendingReport other (s.hooks caller) = 0)
    (after : ∀ other, pendingReport other hook = 0) : (s.setHook caller hook).Accounted :=
  accounted.setHook fun other => (after other).trans (before other).symm

theorem Accounted.counting (accounted : s.Accounted) {threadNo : Caller → Thread} {caller : Caller}
    {guard : Nat} (here : s.hooks caller = .entered guard)
    (taken : s.advance threadNo caller = some next) : next.Accounted := by
  have ok := accounted.collectors (threadNo caller)
  have moved : (s.setHook caller (.counting guard)).Accounted :=
    accounted.quiet (fun _ => by rw [here]; rfl) fun _ => rfl
  simp only [Feedback.advance, here] at taken
  split at taken
  · cases taken
    exact moved.setThread (fun _ _ => rfl) ⟨ok.within, ok.order⟩
  · cases taken
    exact moved

theorem Accounted.totalling (accounted : s.Accounted) {threadNo : Caller → Thread}
    {caller : Caller} {guard : Nat} {v : UInt8} (here : s.hooks caller = .totalling guard v)
    (taken : s.advance threadNo caller = some next) : next.Accounted := by
  have moved : (s.setHook caller (.peeking guard (instrumentCntMap v))).Accounted :=
    accounted.quiet (fun _ => by rw [here]; rfl) fun _ => rfl
  simp only [Feedback.advance, here] at taken
  cases taken
  refine moved.add (threadNo caller) 1 ?_
  split <;> rfl

theorem Accounted.marking (accounted : s.Accounted) {threadNo : Caller → Thread}
    {caller : Caller} {guard : Nat} {newval : UInt8} (here : s.hooks caller = .marking guard newval)
    (taken : s.advance threadNo caller = some next) : next.Accounted := by
  have silent : ∀ other, pendingReport other (s.hooks caller) = 0 := fun _ => by rw [here]; rfl
  have mapped : (s.orGuard guard newval).Accounted := ⟨accounted.balance, accounted.collectors⟩
  simp only [Feedback.advance, here] at taken
  split at taken
  · cases taken
    exact mapped.mark silent
  · split at taken
    · cases taken
      exact mapped.mark silent
    · cases taken
      exact mapped.quiet silent fun _ => rfl

theorem Accounted.setting (accounted : s.Accounted) {threadNo : Caller → Thread}
    {caller : Caller} {pos : Nat} (here : s.hooks caller = .setting pos)
    (taken : s.advance threadNo caller = some next) : next.Accounted := by
  have silent : ∀ other, pendingReport other (s.hooks caller) = 0 := fun _ => by rw [here]; rfl
  have mapped : (s.setAddress pos).Accounted := ⟨accounted.balance, accounted.collectors⟩
  simp only [Feedback.advance, here] at taken
  split at taken
  · cases taken
    exact mapped.quiet silent fun _ => rfl
  · cases taken
    exact mapped.mark silent

theorem Accounted.advance (accounted : s.Accounted) {threadNo : Caller → Thread} {caller : Caller}
    (taken : s.advance threadNo caller = some next) : next.Accounted := by
  have ok := accounted.collectors (threadNo caller)
  cases here : s.hooks caller with
  | idle => simp [Feedback.advance, here] at taken
  | entered guard => exact accounted.counting here taken
  | totalling guard v => exact accounted.totalling here taken
  | marking guard newval => exact accounted.marking here taken
  | setting pos => exact accounted.setting here taken
  | counting guard =>
    have moved : (s.setHook caller
        (.totalling guard ((s.threads (threadNo caller)).localMap guard + 1))).Accounted :=
      accounted.quiet (fun _ => by rw [here]; rfl) fun _ => rfl
    simp only [Feedback.advance, here] at taken
    cases taken
    exact moved.setThread (fun _ _ => rfl) ⟨ok.within, ok.order⟩
  | peeking guard newval =>
    simp only [Feedback.advance, here] at taken
    split at taken <;> cases taken <;>
      exact accounted.quiet (fun _ => by rw [here]; rfl) fun _ => rfl
  | reporting counter =>
    simp only [Feedback.advance, here] at taken
    cases taken
    exact accounted.report here
  | comparing pos v narrow =>
    simp only [Feedback.advance, here] at taken
    split at taken <;> cases taken <;>
      exact accounted.quiet (fun _ => by rw [here]; rfl) fun _ => rfl
  | raising pos v prev =>
    have moved : (s.setHook caller (.adding (v - prev))).Accounted :=
      accounted.quiet (fun _ => by rw [here]; rfl) fun _ => rfl
    simp only [Feedback.advance, here] at taken
    cases taken
    exact ⟨moved.balance, moved.collectors⟩
  | adding diff =>
    have moved : (s.setHook caller .idle).Accounted :=
      accounted.quiet (fun _ => by rw [here]; rfl) fun _ => rfl
    simp only [Feedback.advance, here] at taken
    cases taken
    exact moved.add (threadNo caller) diff.toNat rfl

theorem Accounted.dies (accounted : s.Accounted) {threadNo : Caller → Thread} {caller : Caller}
    (taken : s.step threadNo (.die caller) = some next) : next.Accounted := by
  simp only [Feedback.step] at taken
  split at taken
  · next here =>
    cases taken
    exact accounted.die here
  · next silent =>
    cases taken
    refine accounted.setHook fun other => ?_
    cases here : s.hooks caller with
    | reporting counter => exact absurd here (silent counter)
    | _ => rfl

omit [DecidableEq Thread] in
theorem Accounted.enters (accounted : s.Accounted) {caller : Caller} {hook : Hook}
    (here : s.hooks caller = .idle) (silent : ∀ other, pendingReport other hook = 0) :
    (s.setHook caller hook).Accounted :=
  accounted.quiet (fun _ => by rw [here]; rfl) silent

theorem Accounted.step (accounted : s.Accounted) {threadNo : Caller → Thread}
    {action : FeedbackAction Thread Caller} (taken : s.step threadNo action = some next) :
    next.Accounted := by
  cases action with
  | advance caller => exact accounted.advance taken
  | die caller => exact accounted.dies taken
  | tracePcGuard caller guard =>
    obtain ⟨⟨here, _⟩, made⟩ := Option.ite_none_right_eq_some.mp taken
    cases made
    exact accounted.enters here fun _ => rfl
  | counter8 caller guard v =>
    obtain ⟨⟨here, _⟩, made⟩ := Option.ite_none_right_eq_some.mp taken
    cases made
    exact accounted.enters here fun _ => rfl
  | traceCmp caller pos v narrow =>
    obtain ⟨here, made⟩ := Option.ite_none_right_eq_some.mp taken
    cases made
    exact accounted.enters here fun _ => rfl
  | tracePc caller pos =>
    obtain ⟨here, made⟩ := Option.ite_none_right_eq_some.mp taken
    split at made
    · cases made
      exact accounted
    · cases made
      exact accounted.enters here fun _ => rfl
  | addTotal t counter sum =>
    obtain ⟨total, made⟩ := Option.ite_none_right_eq_some.mp taken
    cases made
    refine accounted.add t sum ?_
    rcases total with rfl | rfl <;> rfl
  | resetLocal t | newProcess t =>
    cases taken
    exact accounted.setThread (fun _ _ => rfl)
      ⟨(accounted.collectors t).within, (accounted.collectors t).order⟩
  | clearNewCov t counter =>
    cases taken
    exact accounted.clearNewCov t
  | acquire t soft =>
    simp only [Feedback.step] at taken
    split at taken
    · next here =>
      cases taken
      have begun := accounted.acquire here soft
      exact ⟨begun.balance, begun.collectors⟩
    · cases taken
  | load t =>
    simp only [Feedback.step] at taken
    split at taken
    · next here =>
      cases taken
      exact accounted.load here
    · cases taken
  | clear t =>
    simp only [Feedback.step] at taken
    split at taken
    · next here =>
      cases taken
      exact accounted.clear here
    · cases taken
  | commit t run =>
    simp only [Feedback.step] at taken
    split at taken
    · next here =>
      cases taken
      exact ⟨(accounted.commit here run).balance, (accounted.commit here run).collectors⟩
    · cases taken
  | addDynamicInput cov =>
    cases taken
    exact ⟨accounted.balance, accounted.collectors⟩

end Account

/-! ## What is marked -/

theorem instrumentCntMap_spec (v : UInt8) :
    instrumentCntMap v = 0 ∨ ∃ bit < 8, (instrumentCntMap v).toNat = 2 ^ bit := by
  unfold instrumentCntMap
  split
  · exact .inl rfl
  right
  split
  · exact ⟨0, by decide, rfl⟩
  split
  · exact ⟨1, by decide, rfl⟩
  split
  · exact ⟨2, by decide, rfl⟩
  split
  · exact ⟨3, by decide, rfl⟩
  split
  · exact ⟨4, by decide, rfl⟩
  split
  · exact ⟨5, by decide, rfl⟩
  split
  · exact ⟨6, by decide, rfl⟩
  · exact ⟨7, by decide, rfl⟩

/-- The number of the highest bucket that a guard has been in. -/
def level (value : UInt8) : Nat := value.toNat.size

theorem level_le (value : UInt8) : level value ≤ 8 := Nat.size_le.mpr value.toNat_lt

theorem level_le_or (oldval newval : UInt8) : level oldval ≤ level (oldval ||| newval) := by
  refine Nat.size_le_size ?_
  rw [UInt8.toNat_or]
  exact Nat.left_le_or

theorem level_lt_or {oldval newval : UInt8} {bit : Nat} (single : newval.toNat = 2 ^ bit)
    (higher : oldval < newval) : level oldval < level (oldval ||| newval) := by
  have below : level oldval ≤ bit := by
    refine Nat.size_le.mpr ?_
    rw [← single]
    exact higher
  refine Nat.lt_of_le_of_lt below (Nat.lt_size.mpr ?_)
  rw [UInt8.toNat_or, single]
  exact Nat.right_le_or

def HookOk : Hook → Prop
  | .peeking _ newval => newval = 0 ∨ ∃ bit < 8, newval.toNat = 2 ^ bit
  | .marking _ newval => ∃ bit < 8, newval.toNat = 2 ^ bit
  | _ => True

section Marks

variable {Thread Caller : Type} [DecidableEq Thread] [DecidableEq Caller]
  {s next : Feedback Thread Caller} {counter : FeedbackCounter}

/-- What the marks say about the maps. -/
structure Marked (s : Feedback Thread Caller) : Prop where
  guards : ∀ guard, s.marks.count (.newEdge, guard) = if s.pcGuardMap guard = 0 then 0 else 1
  addresses : ∀ pos, s.marks.count (.newPC, pos) = if s.bbMapPc pos then 1 else 0
  levels : ∀ guard, s.marks.count (.newEdge, guard) + s.marks.count (.newCmp, guard) ≤
    level (s.pcGuardMap guard)
  hooks : ∀ caller, HookOk (s.hooks caller)

omit [DecidableEq Thread] [DecidableEq Caller] in
theorem marked_start : Marked (start : Feedback Thread Caller) where
  guards := fun _ => rfl
  addresses := fun _ => rfl
  levels := fun _ => Nat.zero_le _
  hooks := fun _ => trivial

omit [DecidableEq Thread] [DecidableEq Caller] in
theorem Marked.congr (marked : Marked s) (pcGuardMap : next.pcGuardMap = s.pcGuardMap)
    (bbMapPc : next.bbMapPc = s.bbMapPc) (marks : next.marks = s.marks)
    (hooks : ∀ caller, HookOk (next.hooks caller)) : Marked next where
  guards := by
    rw [marks, pcGuardMap]
    exact marked.guards
  addresses := by
    rw [marks, bbMapPc]
    exact marked.addresses
  levels := by
    rw [marks, pcGuardMap]
    exact marked.levels
  hooks := hooks

omit [DecidableEq Thread] in
theorem hookOk_setHook (marked : Marked s) (caller : Caller) {hook : Hook} (ok : HookOk hook) :
    ∀ other, HookOk ((s.setHook caller hook).hooks other) := by
  intro other
  by_cases same : other = caller
  · subst same
    simpa [Feedback.setHook] using ok
  · simpa [Feedback.setHook, same] using marked.hooks other

omit [DecidableEq Thread] in
theorem Marked.setHook (marked : Marked s) (caller : Caller) {hook : Hook} (ok : HookOk hook) :
    Marked (s.setHook caller hook) :=
  marked.congr rfl rfl rfl (hookOk_setHook marked caller ok)

theorem count_mark (marks : List (FeedbackCounter × Nat)) (entry other : FeedbackCounter × Nat) :
    (marks ++ [entry]).count other = marks.count other + if entry = other then 1 else 0 := by
  rw [List.count_append, List.count_singleton]
  simp

omit [DecidableEq Thread] [DecidableEq Caller] in
theorem pcGuardMap_orGuard (s : Feedback Thread Caller) (guard other : Nat) (newval : UInt8) :
    (s.orGuard guard newval).pcGuardMap other =
      if guard = other then s.pcGuardMap guard ||| newval else s.pcGuardMap other := by
  unfold orGuard
  by_cases same : guard = other
  · subst same
    simp
  · simp [same, Ne.symm same]

theorem pos_of_bit {newval : UInt8} {bit : Nat} (single : newval.toNat = 2 ^ bit) : 0 < newval := by
  rw [UInt8.lt_iff_toNat_lt, single]
  exact Nat.two_pow_pos bit

theorem or_ne_zero {oldval newval : UInt8} (higher : oldval < newval) : oldval ||| newval ≠ 0 := by
  intro zero
  have above : newval.toNat ≤ (oldval ||| newval).toNat := by
    rw [UInt8.toNat_or]
    exact Nat.right_le_or
  have positive := Nat.lt_of_le_of_lt (Nat.zero_le _) (UInt8.lt_iff_toNat_lt.mp higher)
  rw [zero] at above
  exact absurd above (Nat.not_le.mpr positive)

omit [DecidableEq Thread] in
/-- An access that raises a guard marks it: as an edge when nothing was there. -/
theorem Marked.raise (marked : Marked s) {caller : Caller} {guard : Nat} {newval : UInt8}
    {bit : Nat} (single : newval.toNat = 2 ^ bit) (higher : s.pcGuardMap guard < newval)
    (kind : (s.pcGuardMap guard = 0 ∧ counter = .newEdge) ∨
      (s.pcGuardMap guard ≠ 0 ∧ counter = .newCmp)) :
    Marked ((s.orGuard guard newval).mark caller counter guard) where
  guards := by
    intro other
    change (s.marks ++ [(counter, guard)]).count _ =
      if (s.orGuard guard newval).pcGuardMap other = 0 then 0 else 1
    rw [count_mark, pcGuardMap_orGuard, marked.guards]
    by_cases same : guard = other
    · subst same
      rw [if_pos rfl, if_neg (or_ne_zero higher)]
      rcases kind with ⟨zero, rfl⟩ | ⟨known, rfl⟩
      · rw [if_pos zero, if_pos rfl]
      · rw [if_neg known, if_neg (by simp)]
    · rw [if_neg same, if_neg (fun equal => same (congrArg Prod.snd equal)), Nat.add_zero]
  addresses := by
    intro pos
    change (s.marks ++ [(counter, guard)]).count _ = if s.bbMapPc pos then 1 else 0
    have other : (counter, guard) ≠ (.newPC, pos) := by
      rcases kind with ⟨_, rfl⟩ | ⟨_, rfl⟩ <;> simp
    rw [count_mark, if_neg other, Nat.add_zero]
    exact marked.addresses pos
  levels := by
    intro other
    change (s.marks ++ [(counter, guard)]).count _ + (s.marks ++ [(counter, guard)]).count _ ≤
      level ((s.orGuard guard newval).pcGuardMap other)
    have before := marked.levels other
    rw [count_mark, count_mark, pcGuardMap_orGuard]
    by_cases same : guard = other
    · subst same
      have raised := level_lt_or single higher
      rw [if_pos rfl]
      rcases kind with ⟨_, rfl⟩ | ⟨_, rfl⟩
      · rw [if_pos rfl, if_neg (by simp)]
        omega
      · rw [if_neg (by simp), if_pos rfl]
        omega
    · rw [if_neg same, if_neg (fun equal => same (congrArg Prod.snd equal)),
        if_neg (fun equal => same (congrArg Prod.snd equal))]
      exact before
  hooks := hookOk_setHook marked caller trivial

omit [DecidableEq Thread] in
/-- An access that comes too late marks nothing. -/
theorem Marked.late (marked : Marked s) {caller : Caller} {guard : Nat} {newval : UInt8}
    (known : s.pcGuardMap guard ≠ 0) : Marked ((s.orGuard guard newval).setHook caller .idle) where
  guards := by
    intro other
    refine (marked.guards other).trans ?_
    change _ = if (s.orGuard guard newval).pcGuardMap other = 0 then 0 else 1
    rw [pcGuardMap_orGuard]
    by_cases same : guard = other
    · subst same
      have kept : s.pcGuardMap guard ||| newval ≠ 0 := by
        intro zero
        exact known (UInt8.or_eq_zero_iff.mp zero).1
      rw [if_pos rfl, if_neg known, if_neg kept]
    · rw [if_neg same]
  addresses := marked.addresses
  levels := by
    intro other
    refine Nat.le_trans (marked.levels other) ?_
    change _ ≤ level ((s.orGuard guard newval).pcGuardMap other)
    rw [pcGuardMap_orGuard]
    split
    · next same =>
      subst same
      exact level_le_or _ _
    · exact Nat.le_refl _
  hooks := hookOk_setHook marked caller trivial

omit [DecidableEq Thread] in
theorem Marked.newPC (marked : Marked s) {caller : Caller} {pos : Nat}
    (fresh : s.bbMapPc pos = false) : Marked ((s.setAddress pos).mark caller .newPC pos) where
  guards := by
    intro guard
    change (s.marks ++ [(FeedbackCounter.newPC, pos)]).count _ = _
    rw [count_mark, if_neg (by simp), Nat.add_zero]
    exact marked.guards guard
  addresses := by
    intro other
    change (s.marks ++ [(FeedbackCounter.newPC, pos)]).count _ =
      if Function.update s.bbMapPc pos true other then 1 else 0
    rw [count_mark, marked.addresses]
    by_cases same : other = pos
    · subst same
      rw [Function.update_self, fresh]
      simp
    · rw [Function.update_of_ne same, if_neg (fun equal => same (congrArg Prod.snd equal).symm),
        Nat.add_zero]
  levels := by
    intro guard
    change (s.marks ++ [(FeedbackCounter.newPC, pos)]).count _ +
      (s.marks ++ [(FeedbackCounter.newPC, pos)]).count _ ≤ _
    rw [count_mark, count_mark, if_neg (by simp), if_neg (by simp)]
    exact marked.levels guard
  hooks := hookOk_setHook marked caller trivial

omit [DecidableEq Thread] in
theorem Marked.again (marked : Marked s) {caller : Caller} {pos : Nat}
    (known : s.bbMapPc pos = true) : Marked ((s.setAddress pos).setHook caller .idle) := by
  have same : Function.update s.bbMapPc pos true = s.bbMapPc := by
    rw [← known]
    exact Function.update_eq_self pos s.bbMapPc
  exact marked.congr rfl same rfl (hookOk_setHook marked caller trivial)

theorem Marked.peeking (marked : Marked s) {threadNo : Caller → Thread} {caller : Caller}
    {guard : Nat} {newval : UInt8} (here : s.hooks caller = .peeking guard newval)
    (taken : s.advance threadNo caller = some next) : Marked next := by
  have own := marked.hooks caller
  rw [here] at own
  simp only [Feedback.advance, here] at taken
  split at taken
  · next higher =>
    cases taken
    refine marked.setHook caller ?_
    rcases own with rfl | bit
    · cases higher
    · exact bit
  · cases taken
    exact marked.setHook caller trivial

theorem Marked.marking (marked : Marked s) {threadNo : Caller → Thread} {caller : Caller}
    {guard : Nat} {newval : UInt8} (here : s.hooks caller = .marking guard newval)
    (taken : s.advance threadNo caller = some next) : Marked next := by
  have own := marked.hooks caller
  rw [here] at own
  obtain ⟨bit, _, single⟩ := own
  simp only [Feedback.advance, here] at taken
  split at taken
  · next zero =>
    cases taken
    exact marked.raise single (by rw [zero]; exact pos_of_bit single) (.inl ⟨zero, rfl⟩)
  · next known =>
    split at taken
    · next higher =>
      cases taken
      exact marked.raise single higher (.inr ⟨known, rfl⟩)
    · cases taken
      exact marked.late known

theorem Marked.setting (marked : Marked s) {threadNo : Caller → Thread} {caller : Caller}
    {pos : Nat} (here : s.hooks caller = .setting pos)
    (taken : s.advance threadNo caller = some next) : Marked next := by
  simp only [Feedback.advance, here] at taken
  split at taken
  · next known =>
    cases taken
    exact marked.again known
  · next fresh =>
    cases taken
    exact marked.newPC (Bool.eq_false_of_not_eq_true fresh)

theorem Marked.advance (marked : Marked s) {threadNo : Caller → Thread} {caller : Caller}
    (taken : s.advance threadNo caller = some next) : Marked next := by
  have silent {hook : Hook} (ok : HookOk hook) := hookOk_setHook marked caller ok
  cases here : s.hooks caller with
  | idle => simp [Feedback.advance, here] at taken
  | peeking guard newval => exact marked.peeking here taken
  | marking guard newval => exact marked.marking here taken
  | setting pos => exact marked.setting here taken
  | entered guard =>
    simp only [Feedback.advance, here] at taken
    split at taken <;> cases taken <;> exact marked.congr rfl rfl rfl (silent trivial)
  | totalling guard v =>
    simp only [Feedback.advance, here] at taken
    cases taken
    exact marked.congr rfl rfl rfl (silent (instrumentCntMap_spec v))
  | counting | reporting | raising | adding =>
    simp only [Feedback.advance, here] at taken
    cases taken
    exact marked.congr rfl rfl rfl (silent trivial)
  | comparing pos v narrow =>
    simp only [Feedback.advance, here] at taken
    split at taken <;> cases taken <;> exact marked.congr rfl rfl rfl (silent trivial)

theorem Marked.step (marked : Marked s) {threadNo : Caller → Thread}
    {action : FeedbackAction Thread Caller} (taken : s.step threadNo action = some next) :
    Marked next := by
  cases action with
  | advance caller => exact marked.advance taken
  | tracePcGuard caller guard | traceCmp caller pos v narrow =>
    obtain ⟨_, made⟩ := Option.ite_none_right_eq_some.mp taken
    cases made
    exact marked.setHook caller trivial
  | counter8 caller guard v =>
    obtain ⟨_, made⟩ := Option.ite_none_right_eq_some.mp taken
    cases made
    exact marked.setHook caller (instrumentCntMap_spec v)
  | tracePc caller pos =>
    obtain ⟨_, made⟩ := Option.ite_none_right_eq_some.mp taken
    split at made
    · cases made
      exact marked
    · cases made
      exact marked.setHook caller trivial
  | die caller =>
    simp only [Feedback.step] at taken
    split at taken <;> cases taken <;>
      exact marked.congr rfl rfl rfl (hookOk_setHook marked caller trivial)
  | addTotal t counter sum =>
    obtain ⟨_, made⟩ := Option.ite_none_right_eq_some.mp taken
    cases made
    exact marked.congr rfl rfl rfl marked.hooks
  | resetLocal | newProcess | clearNewCov | addDynamicInput =>
    cases taken
    exact marked.congr rfl rfl rfl marked.hooks
  | acquire | load | clear =>
    simp only [Feedback.step] at taken
    split at taken
    · cases taken
      exact marked.congr rfl rfl rfl marked.hooks
    · cases taken
  | commit t run =>
    simp only [Feedback.step] at taken
    split at taken
    · cases taken
      unfold Feedback.perfFeedback
      dsimp only
      split <;> exact marked.congr rfl rfl rfl marked.hooks
    · cases taken

end Marks

/-! ## Runs -/

def places (counter : FeedbackCounter) (marks : List (FeedbackCounter × Nat)) : List Nat :=
  (marks.filter fun entry => entry.1 = counter).map Prod.snd

theorem count_places (counter : FeedbackCounter) (marks : List (FeedbackCounter × Nat)) (place : Nat) :
    (places counter marks).count place = marks.count (counter, place) := by
  induction marks with
  | nil => rfl
  | cons entry rest inductionHypothesis =>
      rcases entry with ⟨kind, where_⟩
      unfold places at inductionHypothesis ⊢
      by_cases same : kind = counter
      · subst same
        by_cases here : where_ = place
        · subst here
          simp [inductionHypothesis]
        · simp [inductionHypothesis, here]
      · simp [inductionHypothesis, same]

section Runs

variable {Thread Caller : Type} {s next : Feedback Thread Caller} {threadNo : Caller → Thread}

theorem length_places (s : Feedback Thread Caller) (counter : FeedbackCounter) :
    (places counter s.marks).length = s.marked counter := by
  rw [places, List.length_map, marked, List.countP_eq_length_filter]

theorem Marked.mem_guards (marked : Marked s) (guard : Nat) :
    guard ∈ places .newEdge s.marks ↔ s.pcGuardMap guard ≠ 0 := by
  rw [← List.count_pos_iff, count_places, marked.guards]
  split
  · next zero => simp [zero]
  · next known => simp [known]

theorem Marked.mem_addresses (marked : Marked s) (pos : Nat) :
    pos ∈ places .newPC s.marks ↔ s.bbMapPc pos = true := by
  rw [← List.count_pos_iff, count_places, marked.addresses]
  split
  · next known => simp [known]
  · next fresh => simp [fresh]

theorem Marked.nodup_guards (marked : Marked s) : (places .newEdge s.marks).Nodup := by
  rw [List.nodup_iff_count_le_one]
  intro guard
  rw [count_places, marked.guards]
  split <;> decide

theorem Marked.nodup_addresses (marked : Marked s) : (places .newPC s.marks).Nodup := by
  rw [List.nodup_iff_count_le_one]
  intro pos
  rw [count_places, marked.addresses]
  split <;> decide

theorem Marked.bound (marked : Marked s) (guard : Nat) :
    s.marks.count (.newEdge, guard) + s.marks.count (.newCmp, guard) ≤ 8 :=
  Nat.le_trans (marked.levels guard) (level_le _)

variable [DecidableEq Thread] [DecidableEq Caller] [Fintype Thread] [Fintype Caller]

theorem run_invariant {final : Feedback Thread Caller} {actions : List (FeedbackAction Thread Caller)}
    (reached : runFrom (Feedback.step threadNo) start actions = some final) :
    Accounted final ∧ Marked final := by
  have keeps : ∀ (s : Feedback Thread Caller) (action : FeedbackAction Thread Caller)
      (next : Feedback Thread Caller), (Accounted s ∧ Marked s) →
      s.step threadNo action = some next → (Accounted next ∧ Marked next) :=
    fun _ _ _ holds taken => ⟨holds.1.step taken, holds.2.step taken⟩
  exact runFrom_invariant keeps ⟨accounted_start, marked_start⟩ reached

omit [DecidableEq Thread] [DecidableEq Caller] in
theorem Accounted.softCnt_le (accounted : s.Accounted) (counter : FeedbackCounter)
    (isPlace : counter.isPlace = true) : s.softCnt counter ≤ s.marked counter := by
  have balance := accounted.balance counter isPlace
  omega

/-- Whatever the targets and the threads interleave, no guard and no address is
counted twice, and a guard is marked at most eight times. -/
theorem feedback_bounded {final : Feedback Thread Caller}
    {actions : List (FeedbackAction Thread Caller)}
    (reached : runFrom (Feedback.step threadNo) start actions = some final) :
    (∃ addresses guards : List Nat, addresses.Nodup ∧ guards.Nodup ∧
      (∀ pos, pos ∈ addresses ↔ final.bbMapPc pos = true) ∧
      (∀ guard, guard ∈ guards ↔ final.pcGuardMap guard ≠ 0) ∧
      final.softCnt .newPC ≤ addresses.length ∧ final.softCnt .newEdge ≤ guards.length) ∧
    ∀ guard, final.marks.count (.newEdge, guard) + final.marks.count (.newCmp, guard) ≤ 8 := by
  obtain ⟨accounted, marked⟩ := run_invariant reached
  have newPC := accounted.softCnt_le .newPC rfl
  have newEdge := accounted.softCnt_le .newEdge rfl
  refine ⟨⟨places .newPC final.marks, places .newEdge final.marks, marked.nodup_addresses,
    marked.nodup_guards, marked.mem_addresses, marked.mem_guards, ?_, ?_⟩, marked.bound⟩
  · rwa [length_places]
  · rwa [length_places]

/-- No process dies between a mark and its report, and no counter is cleared that
has not been read to its end. -/
def Careful (s : Feedback Thread Caller) : FeedbackAction Thread Caller → Prop
  | .die caller => ∀ counter, s.hooks caller ≠ .reporting counter
  | .clearNewCov t counter => (s.threads t).unread counter = 0
  | .clear t =>
      match (s.threads t).collector with
      | .clearing counter _ _ => (s.threads t).unread counter = 0
      | _ => True
  | _ => True

omit [DecidableEq Thread] [DecidableEq Caller] [Fintype Thread] [Fintype Caller] in
theorem lose_zero (s : Feedback Thread Caller) (counter : FeedbackCounter) :
    (s.lose counter 0).lost = s.lost :=
  Function.update_eq_self counter s.lost

omit [Fintype Thread] [Fintype Caller] in
theorem lost_advance {caller : Caller} (taken : s.advance threadNo caller = some next) :
    next.lost = s.lost := by
  cases here : s.hooks caller with
  | idle => simp [Feedback.advance, here] at taken
  | counting | totalling | reporting | raising | adding =>
    simp only [Feedback.advance, here] at taken
    cases taken
    rfl
  | entered | peeking | setting | comparing =>
    simp only [Feedback.advance, here] at taken
    split at taken <;> cases taken <;> rfl
  | marking guard newval =>
    simp only [Feedback.advance, here] at taken
    split at taken
    · cases taken
      rfl
    · split at taken <;> cases taken <;> rfl

omit [Fintype Thread] [Fintype Caller] in
theorem lost_of_careful {action : FeedbackAction Thread Caller} (careful : s.Careful action)
    (taken : s.step threadNo action = some next) : next.lost = s.lost := by
  cases action with
  | advance caller => exact lost_advance taken
  | tracePcGuard | counter8 | addTotal | traceCmp =>
    obtain ⟨_, made⟩ := Option.ite_none_right_eq_some.mp taken
    cases made
    rfl
  | tracePc caller pos =>
    obtain ⟨_, made⟩ := Option.ite_none_right_eq_some.mp taken
    split at made <;> cases made <;> rfl
  | die caller =>
    simp only [Feedback.step] at taken
    split at taken
    · next here => exact absurd here (careful _)
    · cases taken
      rfl
  | resetLocal | newProcess | addDynamicInput =>
    cases taken
    rfl
  | clearNewCov t counter =>
    cases taken
    rw [show (s.threads t).unread counter = 0 from careful]
    exact lose_zero _ counter
  | acquire | load =>
    simp only [Feedback.step] at taken
    split at taken
    · cases taken
      rfl
    · cases taken
  | clear t =>
    simp only [Feedback.step] at taken
    split at taken
    · next counter _ _ here =>
      cases taken
      simp only [Careful, here] at careful
      rw [careful]
      exact lose_zero _ counter
    · cases taken
  | commit t run =>
    simp only [Feedback.step] at taken
    split at taken
    · cases taken
      unfold Feedback.perfFeedback
      dsimp only
      split <;> rfl
    · cases taken

/-- Nobody is in a call or collects, and every counter has been collected. -/
def Settled (s : Feedback Thread Caller) : Prop :=
  (∀ caller, s.hooks caller = .idle) ∧
    ∀ t, (s.threads t).collector = .idle ∧ ∀ counter, counter.isNew = true →
      (s.threads t).pid counter = 0

/-- After a careful run that has settled, the totals are the numbers of guards
and of addresses that any target has reached. -/
theorem feedback_exact {final : Feedback Thread Caller}
    {actions : List (FeedbackAction Thread Caller)}
    (reached : runFrom (Feedback.step threadNo) start actions = some final)
    (careful : Along (Feedback.step threadNo) Careful start actions) (settled : Settled final) :
    ∃ addresses guards : List Nat, addresses.Nodup ∧ guards.Nodup ∧
      (∀ pos, pos ∈ addresses ↔ final.bbMapPc pos = true) ∧
      (∀ guard, guard ∈ guards ↔ final.pcGuardMap guard ≠ 0) ∧
      final.softCnt .newPC = addresses.length ∧ final.softCnt .newEdge = guards.length := by
  obtain ⟨accounted, marked⟩ := run_invariant reached
  have unlost : final.lost = fun _ => 0 :=
    careful.invariant (fun _ _ _ unlost careful taken => (lost_of_careful careful taken).trans unlost)
      rfl reached
  have exact_ (counter : FeedbackCounter) (isPlace : counter.isPlace = true) :
      final.softCnt counter = (places counter final.marks).length := by
    have shares : ∀ t, share counter (final.threads t) = 0 := by
      intro t
      obtain ⟨idle, empty⟩ := settled.2 t
      simp [share, FeedbackThread.unread, idle, held, empty counter (isNew_of_isPlace isPlace)]
    have reports : ∀ caller, pendingReport counter (final.hooks caller) = 0 := by
      intro caller
      rw [settled.1 caller]
      rfl
    have balance := accounted.balance counter isPlace
    rw [unlost] at balance
    simp only [shares, reports, Finset.sum_const_zero, Nat.add_zero] at balance
    rw [length_places, balance]
  exact ⟨places .newPC final.marks, places .newEdge final.marks, marked.nodup_addresses,
    marked.nodup_guards, marked.mem_addresses, marked.mem_guards, exact_ .newPC rfl,
    exact_ .newEdge rfl⟩

end Runs

/-- Two targets reach one guard at the same time. -/
def racingActions : List (FeedbackAction Bool Bool) :=
  [.tracePcGuard false 7, .advance false, .advance false, .advance false, .advance false,
   .tracePcGuard true 7, .advance true, .advance true, .advance true, .advance true,
   .advance false, .advance true, .advance false, .traceCmp true 3 5 true, .advance true, .advance true,
   .advance true, .acquire false true, .load false, .clear false, .load false, .clear false,
   .load false, .clear false, .load false, .clear false, .load false, .clear false, .load false,
   .clear false, .commit false ⟨0, 0, 0, 0⟩, .addDynamicInput (0, 0, 0)]

theorem feedback_bounded_race :
    ∃ final : Feedback Bool Bool, runFrom (Feedback.step id) start racingActions = some final ∧
      (∃ addresses guards : List Nat, addresses.Nodup ∧ guards.Nodup ∧
        (∀ pos, pos ∈ addresses ↔ final.bbMapPc pos = true) ∧
        (∀ guard, guard ∈ guards ↔ final.pcGuardMap guard ≠ 0) ∧
        final.softCnt .newPC ≤ addresses.length ∧ final.softCnt .newEdge ≤ guards.length) ∧
      ∀ guard, final.marks.count (.newEdge, guard) + final.marks.count (.newCmp, guard) ≤ 8 :=
  ⟨_, rfl, @feedback_bounded Bool Bool id _ _ _ _ _ racingActions rfl⟩

/-- A target reaches an address, and its round is collected. -/
def collectedActions : List (FeedbackAction Unit Unit) :=
  [.tracePc () 5, .advance (), .advance (), .acquire () true, .load (), .clear (), .load (),
   .clear (), .load (), .clear (), .load (), .clear (), .load (), .clear (), .load (), .clear (),
   .commit () ⟨0, 0, 0, 0⟩]

theorem careful_collected : Along (Feedback.step id) Careful start collectedActions := by
  unfold collectedActions
  repeat'
    first
    | exact trivial
    | refine (along_cons_of_some rfl).mpr ⟨by trivial, ?_⟩

theorem feedback_exact_collected :
    ∃ final : Feedback Unit Unit, runFrom (Feedback.step id) start collectedActions = some final ∧
      ∃ addresses guards : List Nat, addresses.Nodup ∧ guards.Nodup ∧
        (∀ pos, pos ∈ addresses ↔ final.bbMapPc pos = true) ∧
        (∀ guard, guard ∈ guards ↔ final.pcGuardMap guard ≠ 0) ∧
        final.softCnt .newPC = addresses.length ∧ final.softCnt .newEdge = guards.length :=
  ⟨_, rfl, @feedback_exact Unit Unit id _ _ _ _ _ collectedActions rfl careful_collected
    ⟨by decide, by
      intro t
      exact ⟨rfl, by rintro (_ | _ | _ | _ | _ | _) ⟨⟩ <;> rfl⟩⟩⟩

end GraphDissect.Fuzzing.Feedback
