import Stencil.Proofs.Caching
import Stencil.Proofs.Fetching
import Stencil.Proofs.FrontMatter

/-!
# What is in a cache

A cache that is filled by includes alone holds, under each path, what the first text at that
path was read as that could be read without errors. `Traces` says what the fetches at one path
make of the entry there: while there is none, each fetch asks the loader, and a load in vain leaves
it so; the load that yields a template makes the entry; and from then on every fetch finds it, so
the loader is not asked again. `Fetching.accounts` follows that through whatever evaluations do,
and `cache_history` through sessions, in which contexts with loaders and options of their own
share the cache.
-/

namespace Stencil

open Eval

/-! ## Fetches at a path -/

/-- The fetches at a path, in order. -/
def fetchesAt (path : String) (log : List Fetch) : List Fetch := log.filter (·.path == path)

/-- The loader answered with a text, and the text was read without errors. -/
def Fetch.Yields : Fetch → Template → Prop
  | .load path options (.ok (some text)), t =>
    Template.parse (includeOptions options) (some path) text = .ok t ∧ t.hasErrors = false
  | _, _ => False

/-- The loader was asked, and no template came of it: the loader failed, it had no text, or the
text cannot be read without errors. -/
def Fetch.IsVain : Fetch → Prop
  | .hit _ => False
  | .load path options answer => ∀ t, ¬ (Fetch.load path options answer).Yields t

/-- What the fetches at a path make of the entry there. -/
inductive Traces (path : String) :
    Option LoadedTemplate → List Fetch → Option LoadedTemplate → Prop
  | vain {fetches : List Fetch} : (∀ fetch ∈ fetches, fetch.IsVain) → Traces path none fetches none
  | first {before after : List Fetch} {fetch : Fetch} {kept : LoadedTemplate} : path ≠ "" →
      Text.strip path = path → (∀ fetch ∈ before, fetch.IsVain) → fetch.path = path →
      fetch.Yields kept.template → (∀ fetch ∈ after, fetch = .hit path) →
      Traces path none (before ++ fetch :: after) (some kept)
  | hits {fetches : List Fetch} {kept : LoadedTemplate} : (∀ fetch ∈ fetches, fetch = .hit path) →
      Traces path (some kept) fetches (some kept)

namespace Traces

variable {path : String}

theorem refl (entry : Option LoadedTemplate) : Traces path entry [] entry := by
  cases entry with
  | none => exact .vain fun _ h => absurd h List.not_mem_nil
  | some kept => exact .hits fun _ h => absurd h List.not_mem_nil

theorem trans {a b c : Option LoadedTemplate} {more evenMore : List Fetch} (h : Traces path a more b)
    (k : Traces path b evenMore c) : Traces path a (more ++ evenMore) c := by
  cases h with
  | vain hvain =>
    cases k with
    | vain hvain' => exact .vain (List.forall_mem_append.mpr ⟨hvain, hvain'⟩)
    | first hne hstrip hvain' hpath hyields hhits =>
      rw [← List.append_assoc]
      exact .first hne hstrip (List.forall_mem_append.mpr ⟨hvain, hvain'⟩) hpath hyields hhits
  | first hne hstrip hvain hpath hyields hhits =>
    cases k with
    | hits hhits' =>
      rw [List.append_assoc, List.cons_append]
      exact .first hne hstrip hvain hpath hyields (List.forall_mem_append.mpr ⟨hhits, hhits'⟩)
  | hits hhits =>
    cases k with
    | hits hhits' => exact .hits (List.forall_mem_append.mpr ⟨hhits, hhits'⟩)

end Traces

/-- Fetches account for what becomes of a cache, at every path. -/
def Accounts (cache cache' : TemplateCache) (more : List Fetch) : Prop :=
  ∀ path, Traces path (cache.get? path) (fetchesAt path more) (cache'.get? path)

namespace Accounts

theorem refl (cache : TemplateCache) : Accounts cache cache [] := fun _ => .refl _

theorem trans {a b c : TemplateCache} {more evenMore : List Fetch} (h : Accounts a b more)
    (k : Accounts b c evenMore) : Accounts a c (more ++ evenMore) := by
  intro path
  rw [fetchesAt, List.filter_append]
  exact (h path).trans (k path)

/-- One fetch accounts for a change at its own path. -/
theorem single {cache cache' : TemplateCache} {fetch : Fetch}
    (hpath : Traces fetch.path (cache.get? fetch.path) [fetch] (cache'.get? fetch.path))
    (hother : ∀ path, path ≠ fetch.path → cache'.get? path = cache.get? path) :
    Accounts cache cache' [fetch] := by
  intro path
  by_cases h : fetch.path = path
  · subst h
    have hsame : fetchesAt fetch.path [fetch] = [fetch] := by simp [fetchesAt]
    rw [hsame]
    exact hpath
  · have hnone : fetchesAt path [fetch] = [] := by simpa [fetchesAt] using h
    rw [hnone, hother path (Ne.symm h)]
    exact .refl _

theorem vain {cache : TemplateCache} {fetch : Fetch} (hf : fetch.IsVain)
    (hnone : cache.get? fetch.path = none) : Accounts cache cache [fetch] := by
  refine single ?_ fun _ _ => rfl
  rw [hnone]
  exact .vain (by simpa using hf)

theorem first {cache : TemplateCache} {fetch : Fetch} {kept : LoadedTemplate} (hne : fetch.path ≠ "")
    (hstrip : Text.strip fetch.path = fetch.path) (hnone : cache.get? fetch.path = none)
    (hyields : fetch.Yields kept.template) : Accounts cache (cache.set fetch.path kept) [fetch] := by
  refine single ?_ fun other hother => Table.get?_set_of_ne hother _ _
  rw [hnone, Table.get?_set_self]
  show Traces fetch.path none ([] ++ fetch :: []) (some kept)
  exact .first hne hstrip (by simp) rfl hyields (by simp)

theorem hit {cache : TemplateCache} {path : String} {kept : LoadedTemplate}
    (hkept : cache.get? path = some kept) : Accounts cache cache [.hit path] := by
  refine single ?_ fun _ _ => rfl
  show Traces path (cache.get? path) _ (cache.get? path)
  rw [hkept]
  exact .hits (by simp)

end Accounts

/-! ## Evaluations -/

/-- Behind a load: an answer that is a template is kept under its path, and any other leaves the
cache. -/
theorem after_readAnswer (span : Option Span) (name : String) {path : String} {s : State}
    (hnone : s.cache.get? path = none) (answer : Option String) :
    (Fetch.load path s.context.options (.ok answer)).IsVain ∧
        (after (Logged.readAnswer span name path answer) s).cache = s.cache ∨
      ∃ kept : LoadedTemplate,
        (Fetch.load path s.context.options (.ok answer)).Yields kept.template ∧
        (after (Logged.readAnswer span name path answer) s).cache = s.cache.set path kept := by
  cases answer with
  | none => exact .inl ⟨fun t ht => ht, rfl⟩
  | some text =>
    simp only [after, Logged.readAnswer, bind_run, context_run, Fetch.IsVain, Fetch.Yields]
    cases hp : Template.parse (includeOptions s.context.options) (some path) text with
    | error e =>
      refine .inl ⟨fun t ht => ?_, rfl⟩
      obtain ⟨hparse, -⟩ := ht
      cases hparse
    | ok t =>
      cases he : t.hasErrors with
      | true =>
        simp only [he, if_true]
        refine .inl ⟨fun u hu => ?_, rfl⟩
        obtain ⟨hparse, hno⟩ := hu
        cases hparse
        rw [he] at hno
        cases hno
      | false =>
        simp only [he, Bool.false_eq_true, if_false]
        refine .inr ⟨(t.load s.store).1, ⟨rfl, he⟩, ?_⟩
        show (s.cache.addIfAbsent path (t.load s.store).1).2 = _
        rw [TemplateCache.addIfAbsent, hnone]

/-- Behind the fetch of a template that is not in the cache. -/
theorem after_includedTemplate_miss (span : Option Span) (loader : Loader) (name : String)
    {path : String} {s : State} (hnone : s.cache.get? path = none) (log : List Fetch) :
    after (Logged.includedTemplate span loader name path) (s, log) =
      match ask (loader.load span path) s with
      | .ok answer t => (after (Logged.readAnswer span name path answer) t,
          log ++ [.load path s.context.options (.ok answer)])
      | .error x t => (t, log ++ [.load path s.context.options (.error x)]) := by
  rw [after]
  simp only [Logged.includedTemplate, bind_run, get_run, hnone, Logged.askText]
  cases ask (loader.load span path) s with
  | error x t => rfl
  | ok answer t => exact Logs.after_lift (Logged.readAnswer span name path answer) (t, _)

/-- Taking the template of an include puts down one fetch, which accounts for the cache behind. -/
theorem after_includedTemplate (span : Option Span) (loader : Loader) (name : String) {path : String}
    (hne : path ≠ "") (hstrip : Text.strip path = path) (s : State × List Fetch) :
    ∃ fetch : Fetch, (after (Logged.includedTemplate span loader name path) s).2 = s.2 ++ [fetch] ∧
      Accounts s.1.cache (after (Logged.includedTemplate span loader name path) s).1.cache [fetch] := by
  obtain ⟨s, log⟩ := s
  cases hk : s.cache.get? path with
  | some kept =>
    have hrun : Logged.includedTemplate span loader name path (s, log) =
        .ok kept.numbered (s, log ++ [.hit path]) := by
      simp only [Logged.includedTemplate, bind_run, get_run, hk, Logged.note, pure_run]
    rw [after_of_ok hrun]
    exact ⟨.hit path, rfl, .hit hk⟩
  | none =>
    have hasked := after_ask (loader.load span path) s
    rw [after_includedTemplate_miss span loader name hk log]
    cases hask : ask (loader.load span path) s with
    | error x t =>
      rw [after_of_error hask] at hasked
      have hcache : t.cache = s.cache := by rw [hasked]
      refine ⟨_, rfl, ?_⟩
      dsimp only
      rw [hcache]
      exact .vain (fun t ht => ht) hk
    | ok answer t =>
      rw [after_of_ok hask] at hasked
      have hcache : t.cache = s.cache := by rw [hasked]
      have hoptions : t.context.options = s.context.options := by rw [hasked]
      have hread := after_readAnswer span name (hcache ▸ hk) answer
      rw [hcache, hoptions] at hread
      refine ⟨_, rfl, ?_⟩
      dsimp only
      obtain ⟨hf, hsame⟩ | ⟨kept, hyields, hset⟩ := hread
      · rw [hsame]
        exact .vain hf hk
      · rw [hset]
        exact .first hne hstrip hk hyields

/-- Whatever evaluations do, the log only grows, and accounts for the cache. -/
theorem Fetching.accounts {s t : State × List Fetch} (h : Fetching s t) :
    ∃ more, t.2 = s.2 ++ more ∧ Accounts s.1.cache t.1.cache more := by
  induction h with
  | @idle s t log h => exact ⟨[], (List.append_nil log).symm, h ▸ .refl s.cache⟩
  | take span loader name s hne hstrip =>
    obtain ⟨fetch, hlog, haccounts⟩ := after_includedTemplate span loader name hne hstrip s
    exact ⟨[fetch], hlog, haccounts⟩
  | trans _ _ ih ih' =>
    obtain ⟨more, hlog, haccounts⟩ := ih
    obtain ⟨evenMore, hlog', haccounts'⟩ := ih'
    exact ⟨more ++ evenMore, by rw [hlog', hlog, List.append_assoc], haccounts.trans haccounts'⟩

/-! ## Entries -/

theorem Template.path_of_parse {options : TemplateOptions} {path : Option String} {source : String}
    {t : Template} (h : Template.parse options path source = .ok t) : t.path = path := by
  obtain ⟨-, rfl⟩ | ⟨-, _, _, -, -, hpath, -⟩ := Template.parse_ok h
  · rfl
  · exact hpath

/-- Included templates are text or a script. -/
theorem includeOptions_plain (o : TemplateOptions) :
    (includeOptions o).lexer.mode = .default ∨ (includeOptions o).lexer.mode = .scriptOnly := by
  unfold includeOptions
  dsimp only
  split
  · exact .inr rfl
  · exact .inl rfl

/-- How a template came into a cache, by what was fetched at its path: the loader was asked each
time, in vain, until it answered with a text that could be read without errors. The template is
what that text was read as, with the options of the context that asked, and without front matter.
Since then the loader was not asked. -/
structure LoadedTemplate.Entered (kept : LoadedTemplate) (path : String) (fetches : List Fetch) :
    Prop where
  path_ne : path ≠ ""
  path_stripped : Text.strip path = path
  path_eq : kept.template.path = some path
  hasErrors : kept.template.hasErrors = false
  frontMatter : kept.template.frontMatter? = none
  history : ∃ before options text after,
    fetches = before ++ .load path options (.ok (some text)) :: after ∧
      Template.parse (includeOptions options) (some path) text = .ok kept.template ∧
      (∀ fetch ∈ before, fetch.IsVain) ∧ ∀ fetch ∈ after, fetch = .hit path

/-- What the fetches at a path make of nothing is a template that came into the cache so. -/
theorem Traces.entered {path : String} {fetches : List Fetch} {kept : LoadedTemplate}
    (h : Traces path none fetches (some kept)) : kept.Entered path fetches := by
  cases h with
  | @first before after fetch _ hne hstrip hvain hpath hyields hhits =>
    cases fetch with
    | hit _ => exact hyields.elim
    | load other options answer =>
      obtain rfl : other = path := hpath
      cases answer with
      | error x => exact hyields.elim
      | ok text? =>
        cases text? with
        | none => exact hyields.elim
        | some text =>
          obtain ⟨hparse, herrors⟩ := hyields
          exact
            { path_ne := hne
              path_stripped := hstrip
              path_eq := Template.path_of_parse hparse
              hasErrors := herrors
              frontMatter := Template.frontMatter?_of_plain (includeOptions_plain options) hparse
              history := ⟨before, options, text, after, rfl, hparse, hvain, hhits⟩ }

/-! ## Sessions -/

/-- What a program has done in a context: it runs a template, or evaluates a node. -/
inductive Job where
  | template (t : Template) (way : TemplateRun)
  | node (n : Node)

/-- The evaluation that a job is. -/
def Job.run (host : Host) (fuel : Nat) : Job → Eval Value
  | .template t way => way.run host fuel t
  | .node n => evaluate host fuel n

/-- The same with a log. -/
def Job.logged (functions : HostLog) (host : Host) (fuel : Nat) : Job → Logged Value
  | .template t way => Logged.runWith (Logged.evaluate functions host fuel) t way
  | .node n => Logged.evaluate functions host fuel n

theorem Job.logs {host : Host} {functions : HostLog} (hh : host.LoggedBy functions) (fuel : Nat)
    (job : Job) : Logs (job.run host fuel) (job.logged functions host fuel) := by
  cases job with
  | template t way =>
    show Logs (way.run host fuel t) _
    rw [TemplateRun.run_eq]
    exact Logs.runWith (logs_evaluate hh fuel) t way
  | node n => exact logs_evaluate hh fuel n

namespace Session

/-- The session behind a job in a context, and the log. -/
def carryOut (functions : HostLog) (name : String) (job : Job) (s : Session × List Fetch) :
    Session × List Fetch :=
  ((s.1.run name (job.run s.1.host s.1.fuel)).2,
    (after (job.logged functions s.1.host s.1.fuel) (s.1.stateOf name, s.2)).2)

/-- What can become of a session and of the log of the cache at a place. Jobs are carried out in
contexts that use the cache. Besides, anything may change but the cache: contexts and what they
share, loaders and what they answer from, the host; and jobs may be carried out in contexts that
use another cache. -/
inductive Leads (place : Nat) (start : Session × List Fetch) : Session × List Fetch → Prop
  | refl : Leads place start start
  | change {s t : Session} {log : List Fetch} : Leads place start (s, log) →
      t.caches[place]? = s.caches[place]? → Leads place start (t, log)
  | carryOut {s : Session × List Fetch} {functions : HostLog} {name : String} :
      Leads place start s → (s.1.contexts.get? name).map (·.2) = some place →
      s.1.host.LoggedBy functions → ∀ job, Leads place start (Session.carryOut functions name job s)

variable {place : Nat}

theorem run_snd {α : Type} (s : Session) (name : String) (e : Eval α) :
    (s.run name e).2 = s.withState name (after e (s.stateOf name)) := by
  rw [run, after]
  cases e (s.stateOf name) <;> rfl

/-- Jobs leave the host. -/
theorem carryOut_host (functions : HostLog) (name : String) (job : Job) (s : Session × List Fetch) :
    (carryOut functions name job s).1.host = s.1.host := by
  show (s.1.run name (job.run s.1.host s.1.fuel)).2.host = s.1.host
  rw [run_snd, withState]
  split <;> rfl

/-- A job in a context that uses the cache accounts for it. -/
theorem carryOut_accounts {s : Session × List Fetch} {functions : HostLog} {name : String}
    {cache : TemplateCache} (hcache : s.1.caches[place]? = some cache)
    (hname : (s.1.contexts.get? name).map (·.2) = some place)
    (hh : s.1.host.LoggedBy functions) (job : Job) :
    ∃ cache' more, (carryOut functions name job s).1.caches[place]? = some cache' ∧
      (carryOut functions name job s).2 = s.2 ++ more ∧ Accounts cache cache' more := by
  obtain ⟨⟨c, p⟩, hc, hp⟩ := Option.map_eq_some_iff.mp hname
  obtain rfl : p = place := hp
  have hlogs := job.logs hh s.1.fuel
  have hstate : (s.1.stateOf name).cache = cache := by
    rw [stateOf_eq hc, cacheAt, hcache, Option.getD_some]
  obtain ⟨more, hlog, haccounts⟩ := (hlogs.fetching (s.1.stateOf name, s.2)).accounts
  rw [hlogs.after_fst, hstate] at haccounts
  refine ⟨_, more, ?_, hlog, haccounts⟩
  have hlt : p < s.1.caches.size := (Array.getElem?_eq_some_iff.mp hcache).1
  show (s.1.run name (job.run s.1.host s.1.fuel)).2.caches[p]? = _
  rw [run_snd, withState_eq hc]
  exact Array.getElem?_setIfInBounds_self_of_lt hlt

/-- Whatever becomes of a session, the fetches that are put down account for the cache, by
induction on what is done. -/
theorem Leads.accounts {s t : Session × List Fetch} (h : Leads place s t) {cache : TemplateCache}
    (hcache : s.1.caches[place]? = some cache) :
    ∃ cache' more, t.1.caches[place]? = some cache' ∧ t.2 = s.2 ++ more ∧
      Accounts cache cache' more := by
  induction h with
  | refl => exact ⟨cache, [], hcache, (List.append_nil _).symm, .refl _⟩
  | change _ hsame ih =>
    obtain ⟨cache', more, hcache', hlog, haccounts⟩ := ih
    exact ⟨cache', more, hsame.trans hcache', hlog, haccounts⟩
  | carryOut _ hname hh job ih =>
    obtain ⟨cache', more, hcache', hlog, haccounts⟩ := ih
    obtain ⟨cache'', evenMore, hcache'', hlog', haccounts'⟩ := carryOut_accounts hcache' hname hh job
    exact ⟨cache'', more ++ evenMore, hcache'', by rw [hlog', hlog, List.append_assoc],
      haccounts.trans haccounts'⟩

end Session

/-- What is in a cache that was empty once, that nothing but includes fills, and that is not
cleared. A template in it came there by the first load at its path that was not in vain. At a path
that is not in it, the loader was asked by every include, in vain. And whatever is done later, a
template that is there stays, and the loader is not asked for its path again. The log that this is
read off is that of the runs themselves: without it, each comes to what it comes to. -/
theorem cache_history {place : Nat} {s t : Session} {log : List Fetch}
    (hs : s.caches[place]? = some []) (h : Session.Leads place (s, []) (t, log)) :
    (∃ cache, t.caches[place]? = some cache ∧
      (∀ path kept, cache.get? path = some kept → kept.Entered path (fetchesAt path log)) ∧
      (∀ path, cache.get? path = none → ∀ fetch ∈ fetchesAt path log, fetch.IsVain) ∧
      ∀ {u log'}, Session.Leads place (t, log) (u, log') →
        ∃ cache' more, u.caches[place]? = some cache' ∧ log' = log ++ more ∧
          ∀ path kept, cache.get? path = some kept →
            cache'.get? path = some kept ∧ ∀ fetch ∈ fetchesAt path more, fetch = .hit path) ∧
      ∀ {host : Host} {functions : HostLog}, host.LoggedBy functions → ∀ fuel (job : Job) s,
        withoutLog (job.logged functions host fuel s) = job.run host fuel s.1 := by
  refine ⟨?_, fun hh fuel job => (job.logs hh fuel).withoutLog⟩
  obtain ⟨cache, more, hcache, hlog, haccounts⟩ := h.accounts hs
  obtain rfl : log = more := hlog
  refine ⟨cache, hcache, fun path kept hkept => ?_, fun path hnone => ?_, fun hu => ?_⟩
  · have htraces := haccounts path
    rw [hkept] at htraces
    exact htraces.entered
  · have htraces := haccounts path
    rw [hnone] at htraces
    generalize fetchesAt path log = fetches at htraces ⊢
    cases htraces with
    | vain hvain => exact hvain
  · obtain ⟨cache', more, hcache', hlog', haccounts'⟩ := hu.accounts hcache
    refine ⟨cache', more, hcache', hlog', fun path kept hkept => ?_⟩
    have htraces := haccounts' path
    rw [hkept] at htraces
    generalize fetchesAt path more = fetches at htraces ⊢
    generalize Table.get? path cache' = entry at htraces ⊢
    cases htraces with
    | hits hhits => exact ⟨rfl, hhits⟩

/-- Two contexts that share a cache include a template and then one with errors, under which the
first job fails, and the second too: the text at `f` is loaded once, the one at `e` twice. -/
theorem cache_history_two :
    let page := "\x7b\x7b include(\"g\") \x7d\x7d\x7b\x7b include(\"e\") \x7d\x7d"
    let s : Session := { twoContexts page with host := quietHost }
    let functions : HostLog := fun name span arguments =>
      Logged.lift (quietHost.contextual name span arguments)
    let job := Job.template ((Template.parse {} none page).toOption.getD {}) .render
    let first := Session.carryOut functions "main" job (s, [])
    let second := Session.carryOut functions "other" job first
    s.caches[0]? = some [] ∧ quietHost.LoggedBy functions ∧ Session.Leads 0 (s, []) second ∧
      second.2.map (fun fetch => (fetch.path, match fetch with
        | .hit _ => true
        | .load .. => false)) = [("f", false), ("e", false), ("f", true), ("e", false)] ∧
      ∃ cache kept, second.1.caches[0]? = some cache ∧ cache.get? "e" = none ∧
        cache.get? "f" = some kept ∧ kept.Entered "f" (fetchesAt "f" second.2) := by
  intro page s functions job first second
  have hstart : s.caches[0]? = some [] := rfl
  have hh : quietHost.LoggedBy functions := Host.loggedBy_lift <|
    quietHost_moves sequential_sameCache (fun _ _ => rfl) (fun _ _ => rfl) (fun _ _ => rfl)
      fun _ _ _ => rfl
  have hfirst : first.1.host = quietHost := Session.carryOut_host functions "main" job (s, [])
  have hother : (first.1.contexts.get? "other").map (·.2) = some 0 := by decide +kernel
  have hleads : Session.Leads 0 (s, []) second :=
    .carryOut (.carryOut .refl rfl hh job) hother (hfirst ▸ hh) job
  obtain ⟨⟨cache, hcache, hentered, -, -⟩, -⟩ := cache_history hstart hleads
  replace hcache : second.1.caches[0]? = some cache := hcache
  have hf : ((second.1.cacheAt 0).get? "f").isSome = true := by decide +kernel
  have he : ((second.1.cacheAt 0).get? "e").isNone = true := by decide +kernel
  rw [Session.cacheAt, hcache, Option.getD_some] at hf he
  obtain ⟨kept, hkept⟩ := Option.isSome_iff_exists.mp hf
  exact ⟨hstart, hh, hleads, by decide +kernel, cache, kept, hcache, Option.isNone_iff_eq_none.mp he,
    hkept, hentered "f" kept hkept⟩

end Stencil
