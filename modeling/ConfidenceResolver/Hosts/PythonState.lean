import ConfidenceResolver.Hosts.ReloadingResolver

/-!
# Hosts — the state of the Python provider

`StateFetcher.fetch`, the state installation of `initialize` and of `_state_poll_loop`.  A cycle of
the poll loop fetches, and installs what has changed; resolves and flushes of other threads go on
meanwhile, each in a section of its own, and any call into the instance may fail.

* `PyStateProvider.step`.  `PyStateProvider.Serves`: the last accepted state is held, and restored;
  a state that is not installed is not taken for unchanged.
* `PyStateProvider.Installs`: a state that is installed.
* `python_state_served`: in every run in which each fetched state is installed.
-/

namespace ConfidenceResolver

/-! ### The model -/

/-- A response of the CDN, or an exception. -/
inductive CdnReply where
  | response (status : Nat) (etag : Option String) (content : List UInt8)
  | raised

/-- `StateFetcher`. -/
structure PyStateFetcher where
  state : Option (List UInt8)
  accountId : Option String
  logDestinations : List Int32
  etag : Option String

/-- What `fetch` returns. -/
structure PolledState where
  state : List UInt8
  accountId : String
  changed : Bool
  logDestinations : List Int32

namespace PyStateFetcher

def new : PyStateFetcher := ⟨none, none, [], none⟩

/-- `If-None-Match` of the next request. -/
def ifNoneMatch (f : PyStateFetcher) : Option String := f.etag

def fetch (config : StateConfig) (f : PyStateFetcher) :
    CdnReply → Except Unit PolledState × PyStateFetcher
  | .raised => (.error (), f)
  | .response status etag content =>
      if status = 304 then
        match f.state, f.accountId with
        | some state, some accountId => (.ok ⟨state, accountId, false, f.logDestinations⟩, f)
        | _, _ => (.error (), f)
      else if status ≠ 200 then (.error (), f)
      else
        match (config.decryptAesGcm content).bind config.decode with
        | none => (.error (), f)
        | some clientState =>
            (.ok ⟨clientState.state, clientState.account, true, clientState.logDestinations⟩,
              ⟨some clientState.state, some clientState.account, clientState.logDestinations, etag⟩)

end PyStateFetcher

/-- The provider, and what the poll loop has fetched and is to install. -/
structure PyStateProvider where
  fetcher : PyStateFetcher
  resolver : ReloadingResolver SetResolverStateRequest UInt8
  polled : Option PolledState

inductive PyStateEvent where
  /-- The poll loop fetches. -/
  | fetch (reply : CdnReply)
  /-- The poll loop flushes and installs, if the state has changed. -/
  | install (flush : CallOutcome (List UInt8)) (flushReload : Reload UInt8)
      (set : CallOutcome Unit) (setReload : Reload UInt8)
  /-- A resolve, and a flush, of another thread. -/
  | resolve (outcome : CallOutcome Unit) (reload : Reload UInt8)
  | flush (outcome : CallOutcome (List UInt8)) (reload : Reload UInt8)

namespace PyStateProvider

variable (config : StateConfig)

/-- The fetch and the state installation of `initialize`. -/
def initialized (reply : CdnReply) (set : CallOutcome Unit) (setReload : Reload UInt8) :
    PyStateProvider :=
  match PyStateFetcher.new.fetch config reply with
  | (.ok polled, fetcher) =>
      let resolver : ReloadingResolver SetResolverStateRequest UInt8 :=
        if polled.accountId ≠ "" then
          (PyResolver.setResolverState .new (config.request polled.state polled.accountId) set
            setReload).1
        else .new
      ⟨fetcher, resolver, none⟩
  | (.error _, fetcher) => ⟨fetcher, .new, none⟩

/-- The section of `_state_poll_loop`. -/
def installSection (resolver : ReloadingResolver SetResolverStateRequest UInt8)
    (polled : PolledState) (flush : CallOutcome (List UInt8)) (flushReload : Reload UInt8)
    (set : CallOutcome Unit) (setReload : Reload UInt8) :
    ReloadingResolver SetResolverStateRequest UInt8 :=
  match PyResolver.flushLogs resolver flush flushReload with
  | (resolver, none) => resolver
  | (resolver, some _) =>
      (PyResolver.setResolverState resolver (config.request polled.state polled.accountId) set
        setReload).1

def step (p : PyStateProvider) : PyStateEvent → PyStateProvider
  | .fetch reply =>
      match p.polled with
      | some _ => p
      | none =>
          match p.fetcher.fetch config reply with
          | (.ok polled, fetcher) => { p with fetcher := fetcher, polled := some polled }
          | (.error _, fetcher) => { p with fetcher := fetcher }
  | .install flush flushReload set setReload =>
      match p.polled with
      | none => p
      | some polled =>
          { p with
            resolver :=
              if polled.changed && polled.accountId ≠ "" then
                installSection config p.resolver polled flush flushReload set setReload
              else p.resolver
            polled := none }
  | .resolve outcome reload => { p with resolver := PyResolver.call p.resolver outcome reload }
  | .flush outcome reload => { p with resolver := (PyResolver.flushLogs p.resolver outcome reload).1 }

def run (p : PyStateProvider) (es : List PyStateEvent) : PyStateProvider := es.foldl (step config) p

/-! ### What is claimed -/

/-- The last state whose installation succeeded. -/
def lastInstalled (p : PyStateProvider) : Option SetResolverStateRequest :=
  p.resolver.accepted.getLast?

/-- The instance holds the last state whose installation succeeded, and a reload restores it; at the
end of a cycle, what the next fetch would answer as unchanged is that state. -/
structure Serves (p : PyStateProvider) : Prop where
  holds : p.resolver.held = p.lastInstalled
  restores : ∀ reload state, p.lastInstalled = some state →
    (PyResolver.reloadInstance p.resolver reload).held = some state
  offers : p.polled = none → ∀ reply polled fetcher,
    p.fetcher.fetch config reply = (.ok polled, fetcher) → polled.changed = false →
      p.lastInstalled = some (config.request polled.state polled.accountId)

/-- The state that was fetched is installed: it has an account, the flush does not fail, and the
instance accepts it, or the fresh one behind the failure does. -/
def Installs (resolver : ReloadingResolver SetResolverStateRequest UInt8) (polled : PolledState)
    (flush : CallOutcome (List UInt8)) (set : CallOutcome Unit) (setReload : Reload UInt8) : Prop :=
  polled.accountId ≠ "" ∧ (∃ logs, flush = .returned logs) ∧
    (set = .returned () ∨ config.request polled.state polled.accountId ∈ resolver.accepted ∨
      setReload.accepts = true)

/-- A state that has changed is installed, or is the one that is installed already. -/
def KeepsAt (p : PyStateProvider) : PyStateEvent → Prop
  | .install flush _ set setReload => ∀ polled ∈ p.polled, polled.changed = true →
      Installs config p.resolver polled flush set setReload ∨
        p.lastInstalled = some (config.request polled.state polled.accountId)
  | .fetch _ | .resolve _ _ | .flush _ _ => True

/-- In every step of a run. -/
def Keeps (p : PyStateProvider) : List PyStateEvent → Prop
  | [] => True
  | e :: es => p.KeepsAt config e ∧ (p.step config e).Keeps es

/-- The state that `initialize` fetches is installed. -/
def InitKeeps (reply : CdnReply) (set : CallOutcome Unit) (setReload : Reload UInt8) : Prop :=
  ∀ polled fetcher, PyStateFetcher.new.fetch config reply = (.ok polled, fetcher) →
    Installs config .new polled (.returned []) set setReload

end PyStateProvider

/-! ### The invariant -/

/-- A fetch brings a new state and remembers it, or leaves the fetcher as it is; what it answers as
unchanged is the remembered state. -/
theorem PyStateFetcher.fetch_cases (config : StateConfig) (f : PyStateFetcher) (reply : CdnReply) :
    (∃ polled, (f.fetch config reply).1 = .ok polled ∧ polled.changed = true ∧
        (f.fetch config reply).2.state = some polled.state ∧
        (f.fetch config reply).2.accountId = some polled.accountId) ∨
      (f.fetch config reply).2 = f ∧ ∀ polled, (f.fetch config reply).1 = .ok polled →
        polled.changed = false ∧ f.state = some polled.state ∧
          f.accountId = some polled.accountId := by
  cases reply with
  | raised => exact .inr ⟨rfl, fun _ h => by cases h⟩
  | response status etag content =>
      rw [fetch]
      split
      · split
        · next hstate haccount =>
            refine .inr ⟨rfl, fun polled h => ?_⟩
            cases h
            exact ⟨rfl, hstate, haccount⟩
        · exact .inr ⟨rfl, fun _ h => by cases h⟩
      · split
        · exact .inr ⟨rfl, fun _ h => by cases h⟩
        · split
          · exact .inr ⟨rfl, fun _ h => by cases h⟩
          · exact .inl ⟨_, rfl, rfl, rfl, rfl⟩

namespace PyStateProvider

structure Inv (config : StateConfig) (p : PyStateProvider) : Prop where
  inStep : PyResolver.InStep p.resolver
  fetched : ∀ polled ∈ p.polled, polled.changed = true →
    p.fetcher.state = some polled.state ∧ p.fetcher.accountId = some polled.accountId
  installed : (∀ polled ∈ p.polled, polled.changed = false) → ∀ state accountId,
    p.fetcher.state = some state → p.fetcher.accountId = some accountId →
      p.lastInstalled = some (config.request state accountId)

variable {config : StateConfig} {p : PyStateProvider}

theorem Inv.serves (h : p.Inv config) : p.Serves config where
  holds := h.inStep.held
  restores reload state hlast := by
    obtain ⟨hstep, hsame⟩ := h.inStep.reloadInstance reload
    rw [hstep.held, hsame]
    exact hlast
  offers hidle reply polled fetcher hfetch hunchanged := by
    have hnone : ∀ polled ∈ p.polled, polled.changed = false := by
      rw [hidle]
      exact fun _ hpolled => by cases hpolled
    obtain ⟨polled', hpolled', hchanged, _⟩ | ⟨_, hcached⟩ :=
      PyStateFetcher.fetch_cases config p.fetcher reply
    · rw [hfetch] at hpolled'
      cases hpolled'
      rw [hunchanged] at hchanged
      cases hchanged
    · obtain ⟨_, hstate, haccount⟩ := hcached polled (by rw [hfetch])
      exact h.installed hnone _ _ hstate haccount

/-- A call of another thread keeps the installed state. -/
theorem Inv.of_resolver (h : p.Inv config)
    {resolver : ReloadingResolver SetResolverStateRequest UInt8} (hstep : PyResolver.InStep resolver)
    (hsame : resolver.accepted.getLast? = p.resolver.accepted.getLast?) :
    ({ p with resolver := resolver } : PyStateProvider).Inv config where
  inStep := hstep
  fetched := h.fetched
  installed hidle state accountId hstate haccount :=
    hsame.trans (h.installed hidle state accountId hstate haccount)

theorem Inv.fetch (h : p.Inv config) (reply : CdnReply) :
    (p.step config (.fetch reply)).Inv config := by
  rw [step]
  split
  · exact h
  · next hidle =>
      have hnone : ∀ polled ∈ p.polled, polled.changed = false := by
        rw [hidle]
        exact fun _ hpolled => by cases hpolled
      split
      · next polled fetcher hfetch =>
          have hcases := PyStateFetcher.fetch_cases config p.fetcher reply
          rw [hfetch] at hcases
          obtain ⟨polled', hpolled', hchanged, hstate, haccount⟩ | ⟨hfetcher, hcached⟩ := hcases
          · cases hpolled'
            refine ⟨h.inStep, fun polled' hpolled' _ => ?_, fun hunchanged => ?_⟩
            · cases hpolled'
              exact ⟨hstate, haccount⟩
            · have hfalse := hunchanged polled rfl
              rw [hchanged] at hfalse
              cases hfalse
          · have hsame : fetcher = p.fetcher := hfetcher
            subst hsame
            refine ⟨h.inStep, fun polled' hpolled' htrue => ?_, fun _ => h.installed hnone⟩
            cases hpolled'
            rw [(hcached polled rfl).1] at htrue
            cases htrue
      · next e fetcher hfetch =>
          have hcases := PyStateFetcher.fetch_cases config p.fetcher reply
          rw [hfetch] at hcases
          obtain ⟨polled', hpolled', _⟩ | ⟨hfetcher, _⟩ := hcases
          · cases hpolled'
          · have hsame : fetcher = p.fetcher := hfetcher
            subst hsame
            exact ⟨h.inStep, h.fetched, h.installed⟩

/-- The section that installs a state: it is installed then. -/
theorem installSection_installs {resolver : ReloadingResolver SetResolverStateRequest UInt8}
    (h : PyResolver.InStep resolver) {polled : PolledState} {flush : CallOutcome (List UInt8)}
    {set : CallOutcome Unit} {setReload : Reload UInt8} (flushReload : Reload UInt8)
    (hinstalls : Installs config resolver polled flush set setReload ∨
      resolver.accepted.getLast? = some (config.request polled.state polled.accountId)) :
    PyResolver.InStep (installSection config resolver polled flush flushReload set setReload) ∧
      (installSection config resolver polled flush flushReload set setReload).accepted.getLast? =
        some (config.request polled.state polled.accountId) := by
  rw [installSection]
  cases flush with
  | returned logs =>
      refine PyResolver.setResolverState_accepts ?_
      obtain hinstalls | hlast := hinstalls
      · exact hinstalls.2.2
      · exact .inr (.inl (List.mem_of_getLast? hlast))
  | guestError | trapped =>
      -- the flush fails: the state is the one that is installed
      obtain ⟨_, ⟨logs, hlogs⟩, _⟩ | hlast := hinstalls
      · cases hlogs
      · obtain ⟨hstep, hsame⟩ := h.reloadInstance flushReload
        exact ⟨hstep, hsame.trans hlast⟩

theorem Inv.install (h : p.Inv config) {flush : CallOutcome (List UInt8)}
    {flushReload : Reload UInt8} {set : CallOutcome Unit} {setReload : Reload UInt8}
    (hkeeps : p.KeepsAt config (.install flush flushReload set setReload)) :
    (p.step config (.install flush flushReload set setReload)).Inv config := by
  rw [step]
  split
  · exact h
  · next polled hpolled =>
      have hidle : ∀ polled ∈ (none : Option PolledState), polled.changed = true →
          p.fetcher.state = some polled.state ∧ p.fetcher.accountId = some polled.accountId :=
        fun _ hnone => by cases hnone
      -- a poll without a change installs nothing
      cases hchanged : polled.changed with
      | false =>
          refine ⟨h.inStep, hidle, fun _ => h.installed fun polled' hpolled' => ?_⟩
          rw [hpolled] at hpolled'
          cases hpolled'
          exact hchanged
      | true =>
          obtain ⟨hstate, haccount⟩ := h.fetched polled hpolled hchanged
          have hinstalls := hkeeps polled hpolled hchanged
          have hdone : PyResolver.InStep (if true && decide (polled.accountId ≠ "") then
                installSection config p.resolver polled flush flushReload set setReload
              else p.resolver) ∧
              (if true && decide (polled.accountId ≠ "") then
                installSection config p.resolver polled flush flushReload set setReload
              else p.resolver).accepted.getLast? =
                some (config.request polled.state polled.accountId) := by
            split
            · exact installSection_installs h.inStep flushReload hinstalls
            · next hempty =>
                have hlast := hinstalls.resolve_left fun hinstalls => hempty (by simp [hinstalls.1])
                exact ⟨h.inStep, hlast⟩
          refine ⟨hdone.1, hidle, fun _ state accountId hstate' haccount' => ?_⟩
          rw [hstate] at hstate'
          rw [haccount] at haccount'
          cases hstate'
          cases haccount'
          exact hdone.2

/-- **Step lemma.** -/
theorem Inv.step (h : p.Inv config) {e : PyStateEvent} (hkeeps : p.KeepsAt config e) :
    (p.step config e).Inv config := by
  cases e with
  | fetch reply => exact h.fetch reply
  | install flush flushReload set setReload => exact h.install hkeeps
  | resolve outcome reload =>
      obtain ⟨hstep, hsame⟩ := h.inStep.call outcome reload
      exact h.of_resolver hstep hsame
  | flush outcome reload =>
      obtain ⟨hstep, hsame⟩ := h.inStep.flushLogs outcome reload
      exact h.of_resolver hstep hsame

/-- **Run lemma.** -/
theorem Inv.run (h : p.Inv config) {es : List PyStateEvent} (hkeeps : p.Keeps config es) :
    (p.run config es).Inv config := by
  induction es generalizing p with
  | nil => exact h
  | cons e es ih => exact ih (h.step hkeeps.1) hkeeps.2

theorem inv_initialized {reply : CdnReply} {set : CallOutcome Unit} {setReload : Reload UInt8}
    (hkeeps : InitKeeps config reply set setReload) :
    (initialized config reply set setReload).Inv config := by
  rw [initialized]
  have hcases := PyStateFetcher.fetch_cases config .new reply
  split
  · next polled fetcher hfetch =>
      rw [hfetch] at hcases
      obtain ⟨hid, _, haccepts⟩ := hkeeps polled fetcher hfetch
      obtain ⟨polled', hpolled', _, hstate, haccount⟩ | ⟨_, hcached⟩ := hcases
      · cases hpolled'
        obtain ⟨hstep, hlast⟩ := PyResolver.setResolverState_accepts haccepts
        rw [if_pos hid]
        refine ⟨hstep, fun _ hnone => (by cases hnone), fun _ state accountId hstate' haccount' => ?_⟩
        rw [hstate] at hstate'
        rw [haccount] at haccount'
        cases hstate'
        cases haccount'
        exact hlast
      · cases (hcached polled rfl).2.1
  · next e fetcher hfetch =>
      rw [hfetch] at hcases
      obtain ⟨polled', hpolled', _⟩ | ⟨hfetcher, _⟩ := hcases
      · cases hpolled'
      · have hsame : fetcher = .new := hfetcher
        subst hsame
        exact ⟨PyResolver.inStep_new, fun _ hnone => (by cases hnone),
          fun _ _ _ hstate => by cases hstate⟩

end PyStateProvider

/-! ### Main results -/

/-- **The provider keeps serving**, in every run in which each fetched state is installed. -/
theorem python_state_served (config : StateConfig) {reply : CdnReply} {set : CallOutcome Unit}
    {setReload : Reload UInt8} {es : List PyStateEvent}
    (hinit : PyStateProvider.InitKeeps config reply set setReload)
    (hkeeps : (PyStateProvider.initialized config reply set setReload).Keeps config es) :
    ((PyStateProvider.initialized config reply set setReload).run config es).Serves config :=
  ((PyStateProvider.inv_initialized hinit).run hkeeps).serves

namespace Sample

/-- Bodies are not encrypted; a body is the state, of the account `a`. -/
def pyStateConfig : StateConfig where
  decryptAesGcm := some
  decode state := some ⟨state, "a", []⟩
  sdk := none
  enableApplyDedup := true
  disableExposureCollection := false

/-- The provider with the state `[1]`. -/
def pyStateProvider : PyStateProvider :=
  .initialized pyStateConfig (.response 200 "v1" [1]) (.returned ()) ⟨none, false⟩

/-- The state `[2]` is fetched; it is installed when a resolve has crashed. -/
def crashThenInstall : List PyStateEvent :=
  [.fetch (.response 200 "v2" [2]), .resolve .trapped ⟨some [8], false⟩,
    .install (.returned [9]) ⟨none, false⟩ (.returned ()) ⟨none, false⟩]

/-- The state `[2]` is fetched, and rejected by the instance and by the fresh one. -/
def rejectedTwice : List PyStateEvent :=
  [.fetch (.response 200 "v2" [2]),
    .install (.returned [9]) ⟨none, false⟩ .guestError ⟨none, false⟩]

end Sample

theorem python_state_served_sample :
    (Sample.pyStateProvider.run Sample.pyStateConfig Sample.crashThenInstall).resolver.held =
        some (Sample.pyStateConfig.request [2] "a") ∧
      (Sample.pyStateProvider.run Sample.pyStateConfig Sample.crashThenInstall).Serves
        Sample.pyStateConfig := by
  refine ⟨by decide +kernel, python_state_served _ (fun polled fetcher hfetch => ?_) ?_⟩
  · cases hfetch
    exact ⟨by decide, ⟨[], rfl⟩, .inl rfl⟩
  · refine ⟨trivial, trivial, fun polled hpolled _ => ?_, trivial⟩
    cases hpolled
    exact .inl ⟨by decide, ⟨[9], rfl⟩, .inl rfl⟩

/-- **A rejected state stops the provider**: the instance holds no state, and the next request has
the etag of the rejected one. -/
theorem python_state_dropped :
    (Sample.pyStateProvider.run Sample.pyStateConfig Sample.rejectedTwice).lastInstalled =
        some (Sample.pyStateConfig.request [1] "a") ∧
      (Sample.pyStateProvider.run Sample.pyStateConfig Sample.rejectedTwice).resolver.held = none ∧
      (Sample.pyStateProvider.run Sample.pyStateConfig Sample.rejectedTwice).fetcher.ifNoneMatch =
        some "v2" ∧
      ¬ (Sample.pyStateProvider.run Sample.pyStateConfig Sample.rejectedTwice).Serves
        Sample.pyStateConfig := by
  have hlast : (Sample.pyStateProvider.run Sample.pyStateConfig Sample.rejectedTwice).lastInstalled =
      some (Sample.pyStateConfig.request [1] "a") := by decide +kernel
  have hheld : (Sample.pyStateProvider.run Sample.pyStateConfig Sample.rejectedTwice).resolver.held =
      none := by decide +kernel
  refine ⟨hlast, hheld, by decide +kernel, fun h => ?_⟩
  have hholds := h.holds
  rw [hlast, hheld] at hholds
  cases hholds

end ConfidenceResolver
