import Mathlib.Logic.Function.Basic

/-!
# Hosts — recreation of a crashed instance

`RecoveringResolver` of the Go and the Java provider.  It hands every call to the current instance.
A call that panics starts a recreation in the background, unless one is running: a fresh instance,
the cached state installed in it, then the swap.  `setResolverState` calls are made one after
another.

* `RecoveringResolver.step`: what happens between two accesses to `current`, `broken` and
  `lastState`.
* `RecoveringResolver.Kept`: while nothing is recreated, the state that was set last is served.
* `RecoveringResolver.Keeps`: no update lands in an instance that is, or will be, given up.
* `recovery_keeps_updates`: in every run whose steps are such.
-/

namespace ConfidenceResolver

/-! ### The model -/

/-- An instance, and the state it holds.  For stating what follows: whether a call that panicked had
stored it. -/
structure Instance (α : Type*) where
  held : Option α
  torn : Bool

/-- Where a call of `setResolverState` is. -/
inductive SetCall (α : Type*) where
  | idle
  /-- The call has the instance. -/
  | got (index : Nat) (state : α)
  /-- The instance has accepted the state, which is to be cached. -/
  | accepted (state : α)
  /-- The instance has panicked, which is to be handled. -/
  | panicked (state : α)

/-- Where a recreation is. -/
inductive Recreation (α : Type*) where
  | started
  /-- There is a new instance. -/
  | created (new : Nat)
  /-- The cached state is loaded. -/
  | loaded (new : Nat) (cached : Option α)
  /-- The cached state is installed. -/
  | installed (new : Nat)
  /-- The new instance is the current one, or there is none; `broken` is to be cleared. -/
  | ended

/-- `RecoveringResolver`, with its instances by number.  For stating what follows: the state of the
last call of `setResolverState` that returned without an error. -/
structure RecoveringResolver (α : Type*) where
  instances : Nat → Instance α
  next : Nat
  current : Nat
  broken : Bool
  lastState : Option α
  recreation : Option (Recreation α)
  call : SetCall α
  returned : Option α

inductive RecoveryEvent (α : Type*) where
  /-- `setResolverState` is called, and gets the current instance. -/
  | set (state : α)
  /-- The instance accepts the state. -/
  | accept
  /-- The instance returns an error. -/
  | reject
  /-- The instance panics, before or after it has stored the state. -/
  | panics (landed : Bool)
  /-- The panic is handled.  Java starts no recreation when the call was interrupted. -/
  | handle (recreate : Bool)
  /-- The state is cached, and the call returns. -/
  | cache
  /-- The panic of another call is handled. -/
  | otherPanics
  | create
  /-- `New` panics. -/
  | createFails
  | load
  | install
  | swap
  /-- `broken` is cleared. -/
  | finish

/-- A recreation that has not swapped the instance yet, and is not given up. -/
def Recreation.beforeSwap {α : Type*} : Recreation α → Bool
  | .started | .created _ | .loaded _ _ | .installed _ => true
  | .ended => false

/-- A recreation that has loaded the state that it will swap in. -/
def Recreation.hasLoaded {α : Type*} : Recreation α → Bool
  | .loaded _ _ | .installed _ => true
  | .started | .created _ | .ended => false

namespace RecoveringResolver

variable {α : Type*}

def new : RecoveringResolver α := ⟨fun _ => ⟨none, false⟩, 1, 0, false, none, none, .idle, none⟩

/-- `broken.CompareAndSwap(false, true)`, then `startRecreate`. -/
def handleFailure (r : RecoveringResolver α) : RecoveringResolver α :=
  if r.broken then r else { r with broken := true, recreation := some .started }

def step (r : RecoveringResolver α) : RecoveryEvent α → RecoveringResolver α
  | .set state =>
      match r.call with
      | .idle => { r with call := .got r.current state }
      | _ => r
  | .accept =>
      match r.call with
      | .got i state =>
          { r with
            instances := Function.update r.instances i ⟨some state, false⟩
            call := .accepted state }
      | _ => r
  | .reject =>
      match r.call with
      | .got _ _ => { r with call := .idle }
      | _ => r
  | .panics landed =>
      match r.call with
      | .got i state =>
          { r with
            instances := if landed then Function.update r.instances i ⟨some state, true⟩
              else r.instances
            call := .panicked state }
      | _ => r
  | .handle recreate =>
      match r.call with
      | .panicked _ =>
          let r := if recreate then r.handleFailure else r
          { r with call := .idle }
      | _ => r
  | .cache =>
      match r.call with
      | .accepted state =>
          { r with lastState := some state, call := .idle, returned := some state }
      | _ => r
  | .otherPanics => r.handleFailure
  | .create =>
      match r.recreation with
      | some .started =>
          { r with
            instances := Function.update r.instances r.next ⟨none, false⟩
            next := r.next + 1
            recreation := some (.created r.next) }
      | _ => r
  | .createFails =>
      match r.recreation with
      | some .started => { r with recreation := some .ended }
      | _ => r
  | .load =>
      match r.recreation with
      | some (.created new) => { r with recreation := some (.loaded new r.lastState) }
      | _ => r
  | .install =>
      match r.recreation with
      | some (.loaded new (some state)) =>
          -- an accepted state is accepted by a fresh instance
          { r with
            instances := Function.update r.instances new ⟨some state, false⟩
            recreation := some (.installed new) }
      | some (.loaded new none) => { r with recreation := some (.installed new) }
      | _ => r
  | .swap =>
      match r.recreation with
      | some (.installed new) => { r with current := new, recreation := some .ended }
      | _ => r
  | .finish =>
      match r.recreation with
      | some .ended => { r with broken := false, recreation := none }
      | _ => r

def run (r : RecoveringResolver α) (es : List (RecoveryEvent α)) : RecoveringResolver α :=
  es.foldl step r

/-! ### What is claimed -/

/-- The state that the current instance holds. -/
def held (r : RecoveringResolver α) : Option α := (r.instances r.current).held

/-- While no recreation is running, the current instance holds the state of the last call that
returned without an error; during a call that has reached the instance, that of the call. -/
def Kept (r : RecoveringResolver α) : Prop :=
  r.broken = false →
    match r.call with
    | .idle | .got _ _ => r.held = r.returned
    | .accepted state => r.held = some state
    | .panicked state => r.held = r.returned ∨ r.held = some state

/-- An update is accepted by the current instance, and not while a recreation has loaded another
state; it is cached before a recreation loads; and an instance that has panicked after it had stored
an update does not stay. -/
def KeepsAt (r : RecoveringResolver α) : RecoveryEvent α → Prop
  | .accept => ∀ i state, r.call = .got i state →
      i = r.current ∧ ∀ c ∈ r.recreation, c.hasLoaded = false
  | .load => ∀ new state, r.recreation = some (.created new) → r.call ≠ .accepted state
  | .panics true => ∀ i state, r.call = .got i state → i = r.current → r.recreation ≠ some .ended
  | .handle false => ∀ state, r.call = .panicked state → (r.instances r.current).torn = true →
      ∃ c ∈ r.recreation, c.beforeSwap = true
  | .createFails => r.recreation = some .started → (r.instances r.current).torn = false
  | .set _ | .reject | .panics false | .handle true | .cache | .otherPanics | .create | .install
  | .swap | .finish => True

/-- In every step of a run. -/
def Keeps (r : RecoveringResolver α) : List (RecoveryEvent α) → Prop
  | [] => True
  | e :: es => r.KeepsAt e ∧ (r.step e).Keeps es

/-! ### The invariant -/

/-- The state to be served: that of the accepted call, or of the last one that returned. -/
def served (r : RecoveringResolver α) : Option α :=
  match r.call with
  | .accepted state => some state
  | .idle | .got _ _ | .panicked _ => r.returned

/-- The new instance is not the current one, and no call has it. -/
structure Apart (r : RecoveringResolver α) (new : Nat) : Prop where
  lt : new < r.next
  ne : new ≠ r.current
  notGot : ∀ state, r.call ≠ .got new state

/-- What holds of a recreation. -/
def Prepared (r : RecoveringResolver α) : Recreation α → Prop
  | .started | .ended => True
  | .created new => r.Apart new ∧ r.instances new = ⟨none, false⟩
  | .loaded new cached => r.Apart new ∧ r.instances new = ⟨none, false⟩ ∧ cached = r.returned ∧
      ∀ state, r.call ≠ .accepted state
  | .installed new => r.Apart new ∧ r.instances new = ⟨r.returned, false⟩ ∧
      ∀ state, r.call ≠ .accepted state

structure Inv (r : RecoveringResolver α) : Prop where
  broken : r.broken = r.recreation.isSome
  known : r.current < r.next
  called : ∀ i state, r.call = .got i state → i < r.next
  cached : r.lastState = r.returned
  prepared : ∀ c ∈ r.recreation, r.Prepared c
  serving : (r.instances r.current).torn = false → r.held = r.served
  torn : (r.instances r.current).torn = true →
    (∃ c ∈ r.recreation, c.beforeSwap = true) ∨
      r.recreation = none ∧ ∃ state, r.call = .panicked state ∧ r.held = some state

theorem inv_new : (new : RecoveringResolver α).Inv where
  broken := rfl
  known := Nat.one_pos
  called i state h := by cases h
  cached := rfl
  prepared c hc := by cases hc
  serving _ := rfl
  torn h := by cases h

variable {r : RecoveringResolver α}

/-- An instance is written that is not the new one. -/
theorem Prepared.write {c : Recreation α} (h : r.Prepared c) {i : Nat}
    (hi : ∀ new, r.Apart new → new ≠ i) (inst : Instance α) :
    ({ r with instances := Function.update r.instances i inst } : RecoveringResolver α).Prepared
      c := by
  have hsame : ∀ new, r.Apart new → Function.update r.instances i inst new = r.instances new :=
    fun new hnew => Function.update_of_ne (hi new hnew) _ _
  cases c with
  | started | ended => trivial
  | created new =>
      obtain ⟨hapart, hnew⟩ := h
      exact ⟨⟨hapart.lt, hapart.ne, hapart.notGot⟩, (hsame new hapart).trans hnew⟩
  | loaded new cached =>
      obtain ⟨hapart, hnew, hrest⟩ := h
      exact ⟨⟨hapart.lt, hapart.ne, hapart.notGot⟩, (hsame new hapart).trans hnew, hrest⟩
  | installed new =>
      obtain ⟨hapart, hnew, hrest⟩ := h
      exact ⟨⟨hapart.lt, hapart.ne, hapart.notGot⟩, (hsame new hapart).trans hnew, hrest⟩

/-- The call goes on; it is not accepted behind a recreation that has loaded the cached state. -/
theorem Prepared.recall {c : Recreation α} (h : r.Prepared c) {call : SetCall α}
    (hgot : ∀ i state, call = .got i state → i = r.current)
    (haccepted : ∀ state, call = .accepted state → c.hasLoaded = false) :
    ({ r with call := call } : RecoveringResolver α).Prepared c := by
  have hapart : ∀ new, r.Apart new → ({ r with call := call } : RecoveringResolver α).Apart new :=
    fun new hnew => ⟨hnew.lt, hnew.ne, fun state hcall => hnew.ne (hgot _ _ hcall)⟩
  cases c with
  | started | ended => trivial
  | created new => exact ⟨hapart new h.1, h.2⟩
  | loaded new cached =>
      exact ⟨hapart new h.1, h.2.1, h.2.2.1, fun state hcall => by cases haccepted state hcall⟩
  | installed new =>
      exact ⟨hapart new h.1, h.2.1, fun state hcall => by cases haccepted state hcall⟩

theorem Inv.kept (h : r.Inv) : r.Kept := by
  intro hbroken
  have hnone : r.recreation = none := by
    rw [h.broken] at hbroken
    simpa using hbroken
  cases htorn : (r.instances r.current).torn with
  | false =>
      have hserving := h.serving htorn
      rw [served] at hserving
      cases hcall : r.call with
      | idle | got _ _ | accepted _ => simpa only [hcall] using hserving
      | panicked state =>
          rw [hcall] at hserving
          exact .inl hserving
  | true =>
      obtain ⟨c, hc, _⟩ | ⟨_, state, hcall, hheld⟩ := h.torn htorn
      · rw [hnone] at hc
        cases hc
      · rw [hcall]
        exact .inr hheld

/-- The call goes on, and the instances stay as they are. -/
theorem Inv.recall (h : r.Inv) {call : SetCall α}
    (hgot : ∀ i state, call = .got i state → i = r.current)
    (haccepted : ∀ state, call ≠ .accepted state) (hserved : r.served = r.returned)
    (htorn : (r.instances r.current).torn = true → ∃ c ∈ r.recreation, c.beforeSwap = true) :
    ({ r with call := call } : RecoveringResolver α).Inv := by
  have hserved' : ({ r with call := call } : RecoveringResolver α).served = r.returned := by
    cases call with
    | idle | got _ _ | panicked _ => rfl
    | accepted state => exact absurd rfl (haccepted state)
  refine ⟨h.broken, h.known, fun i state hcall => ?_, h.cached, fun c hc => ?_, fun hfalse => ?_,
    fun htrue => .inl (htorn htrue)⟩
  · rw [hgot i state hcall]
    exact h.known
  · exact (h.prepared c hc).recall hgot fun state hcall => absurd hcall (haccepted state)
  · rw [hserved', ← hserved]
    exact h.serving hfalse

/-- A panic is handled. -/
theorem Inv.handleFailure (h : r.Inv) : r.handleFailure.Inv := by
  rw [RecoveringResolver.handleFailure]
  split
  · exact h
  · refine ⟨rfl, h.known, h.called, h.cached, fun c hc => ?_, h.serving, fun _ => ?_⟩
    · cases hc
      trivial
    · exact .inl ⟨.started, rfl, rfl⟩

/-- While no panic is to be handled, an instance that is torn is about to be replaced. -/
theorem Inv.replaced (h : r.Inv) (hcall : ∀ state, r.call ≠ .panicked state)
    (htorn : (r.instances r.current).torn = true) : ∃ c ∈ r.recreation, c.beforeSwap = true := by
  obtain hc | ⟨_, state, hpanicked, _⟩ := h.torn htorn
  · exact hc
  · exact absurd hpanicked (hcall state)

theorem Inv.set (h : r.Inv) (state : α) : (r.step (.set state)).Inv := by
  unfold step
  dsimp only
  split
  · next hcall =>
      refine h.recall (fun i state' hgot => ?_) (fun _ => by simp) (by rw [served, hcall])
        (h.replaced (by simp [hcall]))
      cases hgot
      rfl
  · exact h

theorem Inv.reject (h : r.Inv) : (r.step .reject).Inv := by
  unfold step
  dsimp only
  split
  · next hcall =>
      exact h.recall (fun _ _ hgot => by cases hgot) (fun _ => by simp) (by rw [served, hcall])
        (h.replaced (by simp [hcall]))
  · exact h

/-- The current instance accepts the state, and no recreation has loaded another one. -/
theorem Inv.accept (h : r.Inv) (hkeeps : r.KeepsAt .accept) : (r.step .accept).Inv := by
  unfold step
  dsimp only
  split
  · next i state hcall =>
      obtain ⟨rfl, hloaded⟩ := hkeeps i state hcall
      refine ⟨h.broken, h.known, fun _ _ hgot => (by cases hgot), h.cached, fun c hc => ?_,
        fun _ => ?_, fun htorn => ?_⟩
      · have hwritten := (h.prepared c hc).write (fun new hnew => hnew.ne) ⟨some state, false⟩
        exact hwritten.recall (fun _ _ hgot => by cases hgot) fun _ _ => hloaded c hc
      · simp [held, served]
      · simp at htorn
  · exact h

/-- The instance panics.  It is torn if the state has landed. -/
theorem Inv.panics (h : r.Inv) {landed : Bool} (hkeeps : r.KeepsAt (.panics landed)) :
    (r.step (.panics landed)).Inv := by
  unfold step
  dsimp only
  split
  · next i state hcall =>
      -- no panic was handled before this one, so an instance that is torn already is about to be
      -- replaced
      have hreplaced := h.replaced (by simp [hcall])
      have hserved : r.served = r.returned := by rw [served, hcall]
      cases landed with
      | false => exact h.recall (fun _ _ hgot => by cases hgot) (fun _ => by simp) hserved hreplaced
      | true =>
          refine ⟨h.broken, h.known, fun _ _ hgot => (by cases hgot), h.cached, fun c hc => ?_,
            fun hfalse => ?_, fun htrue => ?_⟩
          · have hwritten := (h.prepared c hc).write (i := i)
              (fun new hnew heq => hnew.notGot state (heq ▸ hcall)) ⟨some state, true⟩
            exact hwritten.recall (fun _ _ hgot => by cases hgot) fun _ hcall' => by cases hcall'
          · have hne : r.current ≠ i := by
              rintro rfl
              simp at hfalse
            have hsame : Function.update r.instances i ⟨some state, true⟩ r.current =
                r.instances r.current := Function.update_of_ne hne _ _
            simp only [if_true, hsame] at hfalse
            have hserving := h.serving hfalse
            rw [hserved] at hserving
            simp only [held, served, if_true, hsame]
            exact hserving
          · by_cases hcurrent : i = r.current
            · have hrunning := hkeeps i state hcall hcurrent
              cases hc : r.recreation with
              | none => exact .inr ⟨rfl, state, rfl, by simp [held, hcurrent]⟩
              | some c =>
                  refine .inl ⟨c, rfl, ?_⟩
                  cases c with
                  | started | created _ | loaded _ _ | installed _ => rfl
                  | ended => exact absurd hc hrunning
            · have hsame : Function.update r.instances i ⟨some state, true⟩ r.current =
                  r.instances r.current := Function.update_of_ne (Ne.symm hcurrent) _ _
              simp only [if_true, hsame] at htrue
              exact .inl (hreplaced htrue)
  · exact h

/-- The panic of the call is handled, and the call returns the error. -/
theorem Inv.handle (h : r.Inv) {recreate : Bool} (hkeeps : r.KeepsAt (.handle recreate)) :
    (r.step (.handle recreate)).Inv := by
  unfold step
  dsimp only
  split
  · next state hcall =>
      have hserved : r.served = r.returned := by rw [served, hcall]
      cases recreate with
      | false =>
          exact h.recall (fun _ _ hgot => by cases hgot) (fun _ => by simp) hserved
            (hkeeps state hcall)
      | true =>
          refine h.handleFailure.recall (fun _ _ hgot => by cases hgot) (fun _ => by simp) ?_
            fun htorn => ?_
          · rw [RecoveringResolver.handleFailure]
            split
            · exact hserved
            · exact hserved
          · rw [RecoveringResolver.handleFailure] at htorn ⊢
            split at htorn
            · next hbroken =>
                rw [if_pos hbroken]
                refine (h.torn htorn).resolve_right fun hnone => ?_
                rw [h.broken, hnone.1] at hbroken
                cases hbroken
            · next hbroken =>
                rw [if_neg hbroken]
                exact ⟨.started, rfl, rfl⟩
  · exact h

/-- The state is cached, and the call returns. -/
theorem Inv.cache (h : r.Inv) : (r.step .cache).Inv := by
  unfold step
  dsimp only
  split
  · next state hcall =>
      have hidle : ∀ (c : Recreation α), c ∈ r.recreation → c.hasLoaded = false := by
        intro c hc
        have hprepared := h.prepared c hc
        cases c with
        | started | created _ | ended => rfl
        | loaded new cached => exact absurd hcall (hprepared.2.2.2 state)
        | installed new => exact absurd hcall (hprepared.2.2 state)
      refine ⟨h.broken, h.known, fun _ _ hgot => (by cases hgot), rfl, fun c hc => ?_,
        fun hfalse => ?_, fun htrue => .inl (h.replaced (by simp [hcall]) htrue)⟩
      · have hprepared := h.prepared c hc
        have hunloaded := hidle c hc
        cases c with
        | started | ended => trivial
        | created new =>
            obtain ⟨hapart, hnew⟩ := hprepared
            exact ⟨⟨hapart.lt, hapart.ne, fun _ hgot => by cases hgot⟩, hnew⟩
        | loaded new cached => cases hunloaded
        | installed new => cases hunloaded
      · have hserving := h.serving hfalse
        rw [served, hcall] at hserving
        exact hserving
  · exact h

/-- A recreation goes on, and the current instance stays as it is. -/
theorem Inv.advance (h : r.Inv) {c c' : Recreation α} (hc : r.recreation = some c)
    {instances : Nat → Instance α} {next : Nat}
    (hsame : instances r.current = r.instances r.current) (hnext : r.next ≤ next)
    (hprepared : ({ r with
      instances := instances, next := next, recreation := some c' } :
        RecoveringResolver α).Prepared c')
    (htorn : (r.instances r.current).torn = true → c'.beforeSwap = true) :
    ({ r with instances := instances, next := next, recreation := some c' } :
      RecoveringResolver α).Inv := by
  refine ⟨?_, Nat.lt_of_lt_of_le h.known hnext,
    fun i state hcall => Nat.lt_of_lt_of_le (h.called i state hcall) hnext, h.cached,
    fun c'' hc'' => ?_, fun hfalse => ?_, fun htrue => ?_⟩
  · rw [h.broken, hc]
    rfl
  · cases hc''
    exact hprepared
  · dsimp only at hfalse
    rw [hsame] at hfalse
    exact (congrArg Instance.held hsame).trans (h.serving hfalse)
  · dsimp only at htrue
    rw [hsame] at htrue
    exact .inl ⟨c', rfl, htorn htrue⟩

theorem Inv.create (h : r.Inv) : (r.step .create).Inv := by
  unfold step
  dsimp only
  split
  · next hc =>
      refine h.advance hc (Function.update_of_ne (Nat.ne_of_lt h.known) _ _) r.next.le_succ ?_
        fun _ => rfl
      refine ⟨⟨r.next.lt_succ_self, Nat.ne_of_gt h.known, fun state hcall => ?_⟩,
        Function.update_self _ _ _⟩
      exact absurd (h.called _ _ hcall) (Nat.lt_irrefl _)
  · exact h

theorem Inv.createFails (h : r.Inv) (hkeeps : r.KeepsAt .createFails) :
    (r.step .createFails).Inv := by
  unfold step
  dsimp only
  split
  · next hc =>
      have hwhole : (r.instances r.current).torn = false := hkeeps hc
      exact h.advance hc rfl (Nat.le_refl _) trivial fun htorn => by simp [hwhole] at htorn
  · exact h

theorem Inv.load (h : r.Inv) (hkeeps : r.KeepsAt .load) : (r.step .load).Inv := by
  unfold step
  dsimp only
  split
  · next new hc =>
      obtain ⟨hapart, hnew⟩ := h.prepared _ hc
      exact h.advance hc rfl (Nat.le_refl _)
        ⟨⟨hapart.lt, hapart.ne, hapart.notGot⟩, hnew, h.cached, fun state => hkeeps new state hc⟩
        fun _ => rfl
  · exact h

theorem Inv.install (h : r.Inv) : (r.step .install).Inv := by
  unfold step
  dsimp only
  split
  · next new state hc =>
      obtain ⟨hapart, _, hcached, hcall⟩ := h.prepared _ hc
      refine h.advance hc (Function.update_of_ne hapart.ne.symm _ _) (Nat.le_refl _) ?_ fun _ => rfl
      refine ⟨⟨hapart.lt, hapart.ne, hapart.notGot⟩, ?_, hcall⟩
      rw [← hcached]
      exact Function.update_self _ _ _
  · next new hc =>
      obtain ⟨hapart, hnew, hcached, hcall⟩ := h.prepared _ hc
      refine h.advance hc rfl (Nat.le_refl _) ⟨⟨hapart.lt, hapart.ne, hapart.notGot⟩, ?_, hcall⟩
        fun _ => rfl
      rw [← hcached]
      exact hnew
  · exact h

theorem Inv.swap (h : r.Inv) : (r.step .swap).Inv := by
  unfold step
  dsimp only
  split
  · next new hc =>
      obtain ⟨hapart, hnew, hcall⟩ := h.prepared _ hc
      refine ⟨?_, hapart.lt, h.called, h.cached, fun c hc' => ?_, fun _ => ?_, fun htrue => ?_⟩
      · rw [h.broken, hc]
        rfl
      · cases hc'
        trivial
      · simp only [held, hnew, served]
        split
        · next state hcall' => exact absurd hcall' (hcall state)
        · rfl
        · rfl
        · rfl
      · simp [hnew] at htrue
  · exact h

theorem Inv.finish (h : r.Inv) : (r.step .finish).Inv := by
  unfold step
  dsimp only
  split
  · next hc =>
      refine ⟨rfl, h.known, h.called, h.cached, fun c hc' => (by cases hc'), h.serving,
        fun htrue => ?_⟩
      obtain ⟨c, hc', hbefore⟩ | ⟨hnone, _⟩ := h.torn htrue
      · rw [hc] at hc'
        cases hc'
        cases hbefore
      · rw [hc] at hnone
        cases hnone
  · exact h

/-- **Step lemma.** -/
theorem Inv.step (h : r.Inv) {e : RecoveryEvent α} (hkeeps : r.KeepsAt e) : (r.step e).Inv := by
  cases e with
  | set state => exact h.set state
  | accept => exact h.accept hkeeps
  | reject => exact h.reject
  | panics landed => exact h.panics hkeeps
  | handle recreate => exact h.handle hkeeps
  | cache => exact h.cache
  | otherPanics => exact h.handleFailure
  | create => exact h.create
  | createFails => exact h.createFails hkeeps
  | load => exact h.load hkeeps
  | install => exact h.install
  | swap => exact h.swap
  | finish => exact h.finish

/-- **Run lemma.** -/
theorem Inv.run (h : r.Inv) {es : List (RecoveryEvent α)} (hkeeps : r.Keeps es) :
    (r.run es).Inv := by
  induction es generalizing r with
  | nil => exact h
  | cons e es ih => exact ih (h.step hkeeps.1) hkeeps.2

end RecoveringResolver

/-! ### Main results -/

/-- **Recovery keeps the updates**, in every run in which no update lands in an instance that is
given up. -/
theorem recovery_keeps_updates {α : Type*} {es : List (RecoveryEvent α)}
    (hkeeps : (RecoveringResolver.new : RecoveringResolver α).Keeps es) :
    (RecoveringResolver.new.run es).Kept :=
  (RecoveringResolver.inv_new.run hkeeps).kept

namespace Sample

/-- A state is set, and another call panics. -/
def setThenPanic : List (RecoveryEvent Nat) := [.set 0, .accept, .cache, .otherPanics]

/-- A recreation, with an update in its course: behind the swap, or behind the load. -/
def updateBehindSwap : List (RecoveryEvent Nat) :=
  setThenPanic ++ [.create, .load, .install, .swap, .set 1, .accept, .cache, .finish]

def updateBehindLoad : List (RecoveryEvent Nat) :=
  setThenPanic ++ [.create, .load, .set 1, .accept, .cache, .install, .swap, .finish]

end Sample

theorem recovery_keeps_updates_sample :
    (RecoveringResolver.new.run Sample.updateBehindSwap).held = some 1 ∧
      (RecoveringResolver.new.run Sample.updateBehindSwap).Kept := by
  refine ⟨rfl, recovery_keeps_updates ?_⟩
  have haccept : (RecoveringResolver.new.run (Sample.updateBehindSwap.take 1)).KeepsAt .accept := by
    intro i state hcall
    cases hcall
    exact ⟨rfl, fun c hc => by cases hc⟩
  have hupdate : (RecoveringResolver.new.run (Sample.updateBehindSwap.take 9)).KeepsAt .accept := by
    intro i state hcall
    cases hcall
    refine ⟨rfl, fun c hc => ?_⟩
    cases hc
    rfl
  exact ⟨trivial, haccept, trivial, trivial, trivial, fun _ _ _ hcall => (by cases hcall), trivial,
    trivial, trivial, hupdate, trivial, trivial, trivial⟩

/-- **An update is lost**: it is accepted by the old instance after the recreation has loaded the
cached state. -/
theorem recovery_loses_update :
    (RecoveringResolver.new.run Sample.updateBehindLoad).held = some 0 ∧
      (RecoveringResolver.new.run Sample.updateBehindLoad).returned = some 1 ∧
      ¬ (RecoveringResolver.new.run Sample.updateBehindLoad).Kept := by
  refine ⟨rfl, rfl, fun h => ?_⟩
  have hkept := h rfl
  cases hkept

end ConfidenceResolver
