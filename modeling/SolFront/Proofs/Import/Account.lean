import SolFront.Proofs.Dict
import SolFront.Proofs.Import.Runs
import Mathlib.Data.Finset.Card

/-!
# The account of a completion

While a request is being completed, its sources and its missing units are those at the start and
those that the record of questions and answers tells of. Every question keeps that account. It also
says which questions are asked: none twice, none about what was known, and each because a source
imports the unit.

What is still to be done is in the list of pending sources: every other source has all its imports
provided or known to be missing. So when nothing is pending, the request is complete.

A source becomes pending only with an answer that provides it, and no unit is provided twice. So the
rounds that are needed are bounded by the sources at the start and the units that can be provided at
all.
-/

namespace SolFront

namespace ImportAnswer

/-- The source that an answer provides. -/
def source? : ImportAnswer → Option Json
  | contents text => some (.obj [("content", .str text)])
  | error _ => none

/-- The reason why an answer provides nothing. -/
def reason? : ImportAnswer → Option String
  | contents _ => none
  | error reason => some reason

theorem source?_eq_some_iff {answer : ImportAnswer} {source : Json} :
    answer.source? = some source ↔
      ∃ text, answer = .contents text ∧ source = .obj [("content", .str text)] := by
  cases answer with
  | contents text => simp [source?, @eq_comm _ source]
  | error reason => simp [source?]

theorem reason?_eq_some_iff {answer : ImportAnswer} {reason : String} :
    answer.reason? = some reason ↔ answer = .error reason := by
  cases answer with
  | contents text => simp [reason?]
  | error other => simp [reason?]

end ImportAnswer

namespace Import

/-! ## What a record tells -/

/-- The source of a unit, at the start or by an answer since. -/
def sourceAfter (sources : Dict Json) (log : Log) (unit : String) : Option Json :=
  (Dict.get? sources unit).or ((Dict.get? log unit).bind ImportAnswer.source?)

/-- Why a unit is missing, at the start or by an answer since. -/
def reasonAfter (missing : Dict String) (log : Log) (unit : String) : Option String :=
  (Dict.get? missing unit).or ((Dict.get? log unit).bind ImportAnswer.reason?)

/-- The units that were provided. -/
def supplied (log : Log) : List String :=
  Dict.keys (log.filter fun e => e.2.source?.isSome)

theorem get?_snoc (log : Log) (unit other : String) (answer : ImportAnswer) :
    Dict.get? (log ++ [(unit, answer)]) other
      = (Dict.get? log other).or (if other = unit then some answer else none) := by
  induction log with
  | nil => rw [List.nil_append, Dict.get?_cons]; rfl
  | cons e log ih =>
      rw [List.cons_append, Dict.get?_cons, Dict.get?_cons, ih]
      split
      · rfl
      · rfl

/-- The source and the reason after one answer more. -/
theorem bind_get?_snoc {β : Type} (f : ImportAnswer → Option β) {log : Log} {unit : String}
    (hlog : Dict.get? log unit = none) (other : String) (answer : ImportAnswer) :
    (Dict.get? (log ++ [(unit, answer)]) other).bind f
      = if other = unit then f answer else (Dict.get? log other).bind f := by
  rw [get?_snoc]
  split
  · rename_i heq
    rw [heq, hlog]
    rfl
  · rw [Option.or_none]

theorem get?_eq_none_iff {log : Log} {unit : String} :
    Dict.get? log unit = none ↔ unit ∉ Dict.keys log := by
  rw [← Dict.contains_eq_false_iff, ← Dict.contains_iff_mem_keys, Bool.not_eq_true]

/-- An answer provides a source or gives a reason. -/
theorem get?_eq_none_of_unknown {log : Log} {unit : String}
    (hs : (Dict.get? log unit).bind ImportAnswer.source? = none)
    (hr : (Dict.get? log unit).bind ImportAnswer.reason? = none) : Dict.get? log unit = none := by
  cases hlog : Dict.get? log unit with
  | none => rfl
  | some answer =>
      rw [hlog] at hs hr
      cases answer with
      | contents text => exact absurd hs (by simp [ImportAnswer.source?])
      | error reason => exact absurd hr (by simp [ImportAnswer.reason?])

/-- What holds of every question and the record before it goes on holding with one question more. -/
theorem forall_question_snoc {P : Log → String × ImportAnswer → Prop} {log : Log}
    {last : String × ImportAnswer}
    (h : ∀ before e after, log = before ++ e :: after → P before e) (hlast : P log last) :
    ∀ before e after, log ++ [last] = before ++ e :: after → P before e := by
  intro before e after heq
  rcases List.eq_nil_or_concat after with hafter | ⟨after', final, hafter⟩
  · rw [hafter] at heq
    obtain ⟨hbefore, he⟩ := List.append_inj' heq rfl
    rw [← hbefore, ← List.singleton_inj.mp he]
    exact hlast
  · rw [hafter, List.concat_eq_append, ← List.cons_append, ← List.append_assoc] at heq
    exact h before e after' (List.append_inj' heq rfl).1

theorem supplied_snoc (log : Log) (unit : String) (answer : ImportAnswer) :
    supplied (log ++ [(unit, answer)])
      = supplied log ++ (if answer.source?.isSome then [unit] else []) := by
  unfold supplied Dict.keys
  rw [List.filter_append, List.map_append]
  cases answer with
  | contents text => rfl
  | error reason => rfl

theorem supplied_sublist (log : Log) : (supplied log).Sublist (Dict.keys log) :=
  List.filter_sublist.map _

namespace Progress

/-! ## One answer more -/

theorem knows_eq_false_iff {p : Progress} {unit : String} :
    p.knows unit = false ↔ Dict.get? p.sources unit = none ∧ Dict.get? p.missing unit = none := by
  rw [knows, Bool.or_eq_false_iff, Dict.contains_eq_false_iff, Dict.contains_eq_false_iff]

theorem knows_iff {p : Progress} {unit : String} :
    p.knows unit = true ↔
      Dict.contains p.sources unit = true ∨ Dict.contains p.missing unit = true := by
  rw [knows, Bool.or_eq_true]

theorem get?_record_sources (p : Progress) (unit other : String) (answer : ImportAnswer) :
    Dict.get? (p.record unit answer).sources other
      = if other = unit then answer.source?.or (Dict.get? p.sources other)
        else Dict.get? p.sources other := by
  cases answer with
  | contents text => exact Dict.get?_insert _ _ _ _
  | error reason => exact (ite_self _).symm

theorem get?_record_missing (p : Progress) (unit other : String) (answer : ImportAnswer) :
    Dict.get? (p.record unit answer).missing other
      = if other = unit then answer.reason?.or (Dict.get? p.missing other)
        else Dict.get? p.missing other := by
  cases answer with
  | contents text => exact (ite_self _).symm
  | error reason => exact Dict.get?_insert _ _ _ _

theorem knows_record (p : Progress) (unit : String) (answer : ImportAnswer) :
    (p.record unit answer).knows unit = true := by
  rw [knows_iff, Dict.contains_iff, Dict.contains_iff]
  cases answer with
  | contents text => exact Or.inl ⟨_, Dict.get?_insert_self _ _ _⟩
  | error reason => exact Or.inr ⟨_, Dict.get?_insert_self _ _ _⟩

/-! ## Progress only adds -/

/-- Between two moments of a completion sources and missing units are only added, and what is a
source anew is pending. -/
structure Advance (p : Progress) (log : Log) (q : Progress) (log' : Log) : Prop where
  /-- Sources stay. -/
  sources : ∀ {name source}, Dict.get? p.sources name = some source →
    Dict.get? q.sources name = some source
  /-- What is known stays known. -/
  knows : ∀ {unit}, p.knows unit = true → q.knows unit = true
  /-- What is pending stays pending. -/
  pending : ∀ {name}, name ∈ p.pending → name ∈ q.pending
  /-- New sources are pending. -/
  fresh : ∀ {name source}, Dict.get? q.sources name = some source →
    Dict.get? p.sources name = some source ∨ name ∈ q.pending
  /-- There are as many new pending sources as there are units provided. -/
  count : q.pending.length + (supplied log).length = p.pending.length + (supplied log').length

theorem advance_refl (p : Progress) (log : Log) : Advance p log p log :=
  ⟨fun h => h, fun h => h, fun h => h, Or.inl, rfl⟩

theorem advance_trans {p q r : Progress} {log log' log'' : Log} (h : Advance p log q log')
    (h' : Advance q log' r log'') : Advance p log r log'' := by
  refine ⟨fun hs => h'.sources (h.sources hs), fun hk => h'.knows (h.knows hk),
    fun hp => h'.pending (h.pending hp), ?_, ?_⟩
  · intro name source hs
    rcases h'.fresh hs with hs | hs
    · rcases h.fresh hs with hs | hs
      · exact Or.inl hs
      · exact Or.inr (h'.pending hs)
    · exact Or.inr hs
  · have := h.count
    have := h'.count
    omega

theorem advance_record {p : Progress} {unit : String} (hk : p.knows unit = false)
    (answer : ImportAnswer) (log : Log) :
    Advance p log (p.record unit answer) (log ++ [(unit, answer)]) := by
  obtain ⟨hsources, hmissing⟩ := knows_eq_false_iff.mp hk
  have hkeep : ∀ {name source}, Dict.get? p.sources name = some source →
      Dict.get? (p.record unit answer).sources name = some source := by
    intro name source hs
    have hne : name ≠ unit := by
      intro heq
      rw [heq, hsources] at hs
      cases hs
    rw [get?_record_sources, if_neg hne]
    exact hs
  refine ⟨hkeep, ?_, ?_, ?_, ?_⟩
  · intro other hother
    rcases knows_iff.mp hother with h | h
    · obtain ⟨source, hs⟩ := Dict.contains_iff.mp h
      exact knows_iff.mpr (Or.inl (Dict.contains_iff.mpr ⟨source, hkeep hs⟩))
    · obtain ⟨reason, hr⟩ := Dict.contains_iff.mp h
      have hne : other ≠ unit := by
        intro heq
        rw [heq, hmissing] at hr
        cases hr
      refine knows_iff.mpr (Or.inr (Dict.contains_iff.mpr ⟨reason, ?_⟩))
      rw [get?_record_missing, if_neg hne]
      exact hr
  · intro name hname
    cases answer with
    | contents text => exact List.mem_cons_of_mem _ hname
    | error reason => exact hname
  · intro name source hs
    rw [get?_record_sources] at hs
    split at hs
    · -- only the answer brings a source, and with it the unit is pending
      rename_i heq
      cases answer with
      | contents text => exact Or.inr (heq ▸ List.mem_cons_self)
      | error reason => exact Or.inl hs
    · exact Or.inl hs
  · rw [supplied_snoc, List.length_append]
    cases answer with
    | contents text =>
        show (unit :: p.pending).length + _ = _ + (_ + [unit].length)
        simp only [List.length_cons, List.length_nil]
        omega
    | error reason => rfl

/-! ## The account -/

variable {σ : Type} {importer : Importer (StateM σ)} {start p : Progress} {log : Log}

/-- What a completion that began at `start` has asked, and what has become of it. -/
structure Account (importer : Importer (StateM σ)) (start : Progress) (log : Log)
    (p : Progress) : Prop where
  /-- No unit is asked for twice. -/
  distinct : (Dict.keys log).Nodup
  /-- No unit is asked for that was known at the start. -/
  unknown : ∀ unit ∈ Dict.keys log, start.knows unit = false
  /-- The answers are the importer's. -/
  answered : ∀ e ∈ log, ∃ s, (importer e.1 s).1 = e.2
  /-- Each unit is imported by a text that was a source by then. -/
  wanted : ∀ before e after, log = before ++ e :: after →
    ∃ name text, (sourceAfter start.sources before name).bind contentOf? = some text ∧
      e.1 ∈ importsOf name text
  /-- The sources are those at the start and those provided since. -/
  sources : ∀ unit, Dict.get? p.sources unit = sourceAfter start.sources log unit
  /-- The missing units are those at the start and those refused since. -/
  missing : ∀ unit, Dict.get? p.missing unit = reasonAfter start.missing log unit
  /-- The sources are in order. -/
  sources_sorted : p.sources.Sorted
  /-- The missing units are in order. -/
  missing_sorted : p.missing.Sorted

theorem account_start (importer : Importer (StateM σ)) (hs : start.sources.Sorted)
    (hm : start.missing.Sorted) : Account importer start [] start where
  distinct := List.nodup_nil
  unknown := by intro unit h; simp [Dict.keys] at h
  answered := by intro e h; simp at h
  wanted := by intro before e after h; simp at h
  sources := fun _ => Option.or_none.symm
  missing := fun _ => Option.or_none.symm
  sources_sorted := hs
  missing_sorted := hm

/-- The account says nothing about what is pending. -/
theorem account_pending (h : Account importer start log p) (pending : List String) :
    Account importer start log { p with pending := pending } :=
  ⟨h.distinct, h.unknown, h.answered, h.wanted, h.sources, h.missing, h.sources_sorted,
    h.missing_sorted⟩

/-- What is not known was not known at the start, and has not been asked for since. -/
theorem account_unknown (h : Account importer start log p) {unit : String}
    (hk : p.knows unit = false) :
    start.knows unit = false ∧ Dict.get? log unit = none := by
  obtain ⟨hs, hm⟩ := knows_eq_false_iff.mp hk
  rw [h.sources, sourceAfter, Option.or_eq_none_iff] at hs
  rw [h.missing, reasonAfter, Option.or_eq_none_iff] at hm
  exact ⟨knows_eq_false_iff.mpr ⟨hs.1, hm.1⟩, get?_eq_none_of_unknown hs.2 hm.2⟩

/-- **The account is kept when an unknown unit that a source imports is asked for.** -/
theorem account_record (h : Account importer start log p) {unit : String}
    (hk : p.knows unit = false) {name text : String}
    (hname : (Dict.get? p.sources name).bind contentOf? = some text)
    (himp : unit ∈ importsOf name text) (s : σ) :
    Account importer start (log ++ [(unit, (importer unit s).1)])
      (p.record unit (importer unit s).1) := by
  obtain ⟨hstart, hlog⟩ := account_unknown h hk
  obtain ⟨hsource, hreason⟩ := knows_eq_false_iff.mp hstart
  have hkeys : Dict.keys (log ++ [(unit, (importer unit s).1)]) = Dict.keys log ++ [unit] :=
    List.map_append
  generalize hanswer : (importer unit s).1 = answer at hkeys ⊢
  refine ⟨?_, ?_, ?_, ?_, ?_, ?_, ?_, ?_⟩
  · rw [hkeys, List.nodup_append]
    refine ⟨h.distinct, List.nodup_singleton unit, ?_⟩
    intro a ha b hb heq
    rw [List.mem_singleton.mp hb] at heq
    exact get?_eq_none_iff.mp hlog (heq ▸ ha)
  · intro other hother
    rw [hkeys] at hother
    rcases List.mem_append.mp hother with hother | hother
    · exact h.unknown other hother
    · rw [List.mem_singleton.mp hother]
      exact hstart
  · intro e he
    rcases List.mem_append.mp he with he | he
    · exact h.answered e he
    · rw [List.mem_singleton.mp he]
      exact ⟨s, hanswer⟩
  · -- the source that wants the unit is one by now
    refine forall_question_snoc h.wanted ⟨name, text, ?_, himp⟩
    rw [← h.sources]
    exact hname
  · intro other
    rw [get?_record_sources, h.sources, sourceAfter, sourceAfter, bind_get?_snoc _ hlog]
    split
    · rename_i heq
      rw [heq, hsource, hlog]
      simp
    · rfl
  · intro other
    rw [get?_record_missing, h.missing, reasonAfter, reasonAfter, bind_get?_snoc _ hlog]
    split
    · rename_i heq
      rw [heq, hreason, hlog]
      simp
    · rfl
  · cases answer with
    | contents text => exact Dict.sorted_insert h.sources_sorted _ _
    | error reason => exact h.sources_sorted
  · cases answer with
    | contents text => exact h.missing_sorted
    | error reason => exact Dict.sorted_insert h.missing_sorted _ _

/-! ## Steps -/

/-- **One import.** Requiring a unit that a source imports keeps the account, and the unit is known
afterwards. -/
theorem require_step (h : Account importer start log p) {name text : String}
    (hname : (Dict.get? p.sources name).bind contentOf? = some text) {unit : String}
    (himp : unit ∈ importsOf name text) (s : σ) :
    ∃ q s' log', (require (recorded importer) p unit).run (s, log) = (q, (s', log'))
      ∧ Account importer start log' q ∧ Advance p log q log' ∧ q.knows unit = true := by
  cases hk : p.knows unit with
  | true =>
      refine ⟨p, s, log, ?_, h, advance_refl p log, hk⟩
      rw [require, if_pos hk]
      rfl
  | false =>
      refine ⟨p.record unit (importer unit s).1, (importer unit s).2,
        log ++ [(unit, (importer unit s).1)], ?_, account_record h hk hname himp s,
        advance_record hk _ log, knows_record p unit _⟩
      rw [require, if_neg (by rw [hk]; exact Bool.false_ne_true)]
      rfl

/-- **All imports of one source.** -/
theorem require_all {name text : String} :
    ∀ (units : List String) {p : Progress} {log : Log} (s : σ),
      Account importer start log p →
      (Dict.get? p.sources name).bind contentOf? = some text →
      (∀ unit ∈ units, unit ∈ importsOf name text) →
      ∃ q s' log', (units.foldlM (require (recorded importer)) p).run (s, log) = (q, (s', log'))
        ∧ Account importer start log' q ∧ Advance p log q log'
        ∧ ∀ unit ∈ units, q.knows unit = true
  | [], p, log, s, h, _, _ => ⟨p, s, log, rfl, h, advance_refl p log, by simp⟩
  | unit :: units, p, log, s, h, hname, himp => by
      obtain ⟨q, s₁, log₁, hrun, hq, hpq, hk⟩ :=
        require_step h hname (himp unit List.mem_cons_self) s
      have hname' : (Dict.get? q.sources name).bind contentOf? = some text := by
        obtain ⟨source, hsource, htext⟩ := Option.bind_eq_some_iff.mp hname
        rw [hpq.sources hsource]
        exact htext
      obtain ⟨r, s₂, log₂, hrun', hr, hqr, hks⟩ :=
        require_all units s₁ hq hname' fun u hu => himp u (List.mem_cons_of_mem _ hu)
      refine ⟨r, s₂, log₂, ?_, hr, advance_trans hpq hqr, ?_⟩
      · rw [List.foldlM_cons, StateT.run_bind, hrun]
        exact hrun'
      · intro u hu
        rcases List.mem_cons.mp hu with hu | hu
        · exact hu ▸ hqr.knows hk
        · exact hks u hu

theorem importsFrom_of_none {p : Progress} {name : String}
    (h : (Dict.get? p.sources name).bind contentOf? = none) : p.importsFrom name = [] := by
  rw [importsFrom, h]
  rfl

theorem importsFrom_of_some {p : Progress} {name text : String}
    (h : (Dict.get? p.sources name).bind contentOf? = some text) :
    p.importsFrom name = importsOf name text := by
  rw [importsFrom, h]
  rfl

/-- Every source has been looked at, or is pending. -/
def Explored (p : Progress) : Prop :=
  ∀ name text, (Dict.get? p.sources name).bind contentOf? = some text →
    name ∈ p.pending ∨ ∀ unit ∈ importsOf name text, p.knows unit = true

/-- **One round.** Looking at the next source keeps the account, and leaves every source looked at
or pending. -/
theorem complete_step (h : Account importer start log p) (hexp : Explored p) {name : String}
    {pending : List String} (hpend : p.pending = name :: pending) (rounds : Nat) (s : σ) :
    ∃ q s' log', (complete (recorded importer) (rounds + 1) p).run (s, log)
        = (complete (recorded importer) rounds q).run (s', log')
      ∧ Account importer start log' q ∧ Explored q
      ∧ Advance { p with pending := pending } log q log' := by
  have hstep : ∀ s, (complete (recorded importer) (rounds + 1) p).run s
      = ((({ p with pending := pending } : Progress).importsFrom name).foldlM
          (require (recorded importer)) { p with pending := pending } >>=
            fun q => complete (recorded importer) rounds q).run s := by
    intro s
    rw [complete.eq_def]
    simp only [hpend]
  cases htext : (Dict.get? p.sources name).bind contentOf? with
  | none =>
      -- a source without a text imports nothing
      have himports : ({ p with pending := pending } : Progress).importsFrom name = [] :=
        importsFrom_of_none htext
      refine ⟨{ p with pending := pending }, s, log, ?_, account_pending h pending, ?_,
        advance_refl _ log⟩
      · rw [hstep, himports]
        rfl
      · intro other text hother
        rcases hexp other text hother with hmem | hknown
        · rw [hpend] at hmem
          rcases List.mem_cons.mp hmem with heq | hmem
          · rw [heq, htext] at hother
            cases hother
          · exact Or.inl hmem
        · exact Or.inr hknown
  | some text =>
      have himports :
          ({ p with pending := pending } : Progress).importsFrom name = importsOf name text :=
        importsFrom_of_some htext
      obtain ⟨q, s', log', hrun, hq, hpq, hks⟩ :=
        require_all (importsOf name text) s (account_pending h pending) htext fun _ hu => hu
      refine ⟨q, s', log', ?_, hq, ?_, hpq⟩
      · rw [hstep, himports, StateT.run_bind, hrun]
        rfl
      · intro other otherText hother
        obtain ⟨source, hsource, hcontent⟩ := Option.bind_eq_some_iff.mp hother
        rcases hpq.fresh hsource with hold | hnew
        · have hother' : (Dict.get? p.sources other).bind contentOf? = some otherText := by
            rw [show Dict.get? p.sources other = some source from hold]
            exact hcontent
          rcases hexp other otherText hother' with hmem | hknown
          · rw [hpend] at hmem
            rcases List.mem_cons.mp hmem with heq | hmem
            · -- the source just looked at
              rw [heq, htext] at hother'
              cases hother'
              rw [heq]
              exact Or.inr hks
            · exact Or.inl (hpq.pending hmem)
          · exact Or.inr fun unit hu => hpq.knows (hknown unit hu)
        · -- a source that has come with an answer
          exact Or.inl hnew

/-! ## Whole runs -/

/-- **However a completion ends, there is an account of what it has asked**, up to where it has come
to. If it ends with a result, that is where, and nothing is left to be looked at. -/
theorem exists_account (rounds : Nat) : ∀ {p : Progress} {log : Log} (s : σ),
    Account importer start log p → Explored p →
    ∃ q, Account importer start ((complete (recorded importer) rounds p).run (s, log)).2.2 q
      ∧ Explored q
      ∧ ∀ r, ((complete (recorded importer) rounds p).run (s, log)).1 = some r →
        r = q ∧ q.pending = [] := by
  induction rounds with
  | zero =>
      intro p log s h hexp
      refine ⟨p, ?_⟩
      rw [complete.eq_def]
      cases hpend : p.pending with
      | nil => exact ⟨h, hexp, fun r hr => ⟨(Option.some.inj hr).symm, rfl⟩⟩
      | cons name pending => exact ⟨h, hexp, fun r hr => by cases hr⟩
  | succ rounds ih =>
      intro p log s h hexp
      cases hpend : p.pending with
      | nil =>
          refine ⟨p, ?_⟩
          rw [complete.eq_def]
          simp only [hpend]
          exact ⟨h, hexp, fun r hr => ⟨(Option.some.inj hr).symm, trivial⟩⟩
      | cons name pending =>
          obtain ⟨p', s₁, log₁, hstep, hp', hexp', -⟩ := complete_step h hexp hpend rounds s
          rw [hstep]
          exact ih s₁ hp' hexp'

/-- **What a completion that ends has done.** The account holds at its end, and nothing is left to
be looked at. -/
theorem complete_account (rounds : Nat) {p q : Progress} {log log' : Log} {s s' : σ}
    (h : Account importer start log p) (hexp : Explored p)
    (hrun : (complete (recorded importer) rounds p).run (s, log) = (some q, (s', log'))) :
    Account importer start log' q ∧ Explored q ∧ q.pending = [] := by
  obtain ⟨r, hr, hexp', hend⟩ := exists_account rounds s h hexp
  rw [hrun] at hr hend
  obtain ⟨rfl, hpend⟩ := hend q rfl
  exact ⟨hr, hexp', hpend⟩

/-- The units provided are among those that can be provided at all. -/
theorem length_supplied_le (h : Account importer start log p) {offered : Finset String}
    (hoff : ∀ unit s text, (importer unit s).1 = .contents text → unit ∈ offered) :
    (supplied log).length ≤ offered.card := by
  have hnd : (supplied log).Nodup := h.distinct.sublist (supplied_sublist log)
  rw [← List.toFinset_card_of_nodup hnd]
  refine Finset.card_le_card ?_
  intro unit hunit
  obtain ⟨e, he, heq⟩ := List.mem_map.mp (List.mem_toFinset.mp hunit)
  obtain ⟨hlog, hsome⟩ := List.mem_filter.mp he
  obtain ⟨s, hs⟩ := h.answered e hlog
  cases hanswer : e.2 with
  | contents text =>
      rw [hanswer] at hs
      exact heq ▸ hoff e.1 s text hs
  | error reason =>
      rw [hanswer] at hsome
      exact absurd hsome (by simp [ImportAnswer.source?])

/-- **A completion ends** within as many rounds as there are pending sources and units that can be
provided at all. -/
theorem complete_ends {offered : Finset String}
    (hoff : ∀ unit s text, (importer unit s).1 = .contents text → unit ∈ offered) :
    ∀ (rounds : Nat) {p : Progress} {log : Log} (s : σ),
      Account importer start log p → Explored p →
      p.pending.length + offered.card ≤ rounds + (supplied log).length →
      ∃ q s' log', (complete (recorded importer) rounds p).run (s, log) = (some q, (s', log')) := by
  intro rounds
  induction rounds with
  | zero =>
      intro p log s h hexp hbound
      -- all that can be provided has been provided, so the bound leaves nothing pending
      have hlen := length_supplied_le h hoff
      have hpend : p.pending = [] := List.eq_nil_of_length_eq_zero (by omega)
      refine ⟨p, s, log, ?_⟩
      rw [complete.eq_def]
      simp only [hpend]
      rfl
  | succ rounds ih =>
      intro p log s h hexp hbound
      cases hpend : p.pending with
      | nil =>
          refine ⟨p, s, log, ?_⟩
          rw [complete.eq_def]
          simp only [hpend]
          rfl
      | cons name pending =>
          obtain ⟨q, s₁, log₁, hstep, hq, hexp', hadv⟩ := complete_step h hexp hpend rounds s
          rw [hstep]
          refine ih s₁ hq hexp' ?_
          -- one source less is pending, and one more for each unit provided
          have hcount := hadv.count
          dsimp only at hcount
          rw [hpend, List.length_cons] at hbound
          omega

end Progress

end Import

end SolFront
