import SolFront.Import.Closure

/-!
# Runs that go alike

Completing a request does nothing with an importer but ask it and go on from the answer. So if two
importers answer alike, the two completions come out alike, whatever "alike" means: it is enough
that it holds of computations that do nothing, and that it is kept when one computation follows
another.

Two kinds of likeness are used. An importer can be asked under a record of all questions and
answers, which changes nothing but the record; and an importer that always gives the same answers
can be taken for one that has a state.
-/

namespace SolFront.Import

/-! ## Likeness -/

/-- A way to compare the computations of two monads. -/
structure Likeness (m n : Type → Type) [Monad m] [Monad n] where
  alike : {α : Type} → m α → n α → Prop
  /-- Doing nothing is alike. -/
  alike_pure : ∀ {α : Type} (a : α), alike (pure a) (pure a)
  /-- One thing after another is alike if each of the two is. -/
  alike_bind : ∀ {α β : Type} {x : m α} {y : n α} {f : α → m β} {g : α → n β},
    alike x y → (∀ a, alike (f a) (g a)) → alike (x >>= f) (y >>= g)

section

variable {m n : Type → Type} [Monad m] [Monad n] (R : Likeness m n)
variable {asked : Importer m} {asked' : Importer n}

include R

theorem firstContents_alike (h : ∀ unit, R.alike (asked unit) (asked' unit)) :
    ∀ urls, R.alike (firstContents asked urls) (firstContents asked' urls)
  | [] => R.alike_pure _
  | url :: urls => by
      refine R.alike_bind (h url) ?_
      intro answer
      cases answer with
      | contents text => exact R.alike_pure _
      | error reason =>
          refine R.alike_bind (firstContents_alike h urls) ?_
          intro result
          cases result with
          | ok text => exact R.alike_pure _
          | error reasons => exact R.alike_pure _

theorem fill_alike (h : ∀ unit, R.alike (asked unit) (asked' unit)) (source : Json) :
    R.alike (fill asked source) (fill asked' source) := by
  cases source with
  | obj source =>
      unfold fill
      dsimp only
      split
      · exact R.alike_pure _
      · refine R.alike_bind (firstContents_alike R h _) ?_
        intro result
        cases result with
        | ok text => exact R.alike_pure _
        | error reasons => exact R.alike_pure _
  | _ => exact R.alike_pure _

theorem fillAll_alike (h : ∀ unit, R.alike (asked unit) (asked' unit)) :
    ∀ sources, R.alike (fillAll asked sources) (fillAll asked' sources)
  | [] => R.alike_pure _
  | (name, source) :: sources => by
      refine R.alike_bind (fill_alike R h source) ?_
      intro filled
      refine R.alike_bind (fillAll_alike h sources) ?_
      intro rest
      exact R.alike_pure _

theorem foldlM_alike {α β : Type} {f : β → α → m β} {g : β → α → n β}
    (h : ∀ b a, R.alike (f b a) (g b a)) :
    ∀ (l : List α) (b : β), R.alike (l.foldlM f b) (l.foldlM g b)
  | [], b => R.alike_pure b
  | a :: l, b => R.alike_bind (h b a) fun b' => foldlM_alike h l b'

namespace Progress

theorem require_alike (h : ∀ unit, R.alike (asked unit) (asked' unit)) (p : Progress)
    (unit : String) : R.alike (require asked p unit) (require asked' p unit) := by
  unfold require
  split
  · exact R.alike_pure p
  · refine R.alike_bind (h unit) ?_
    intro answer
    exact R.alike_pure _

theorem complete_alike (h : ∀ unit, R.alike (asked unit) (asked' unit)) :
    ∀ (rounds : Nat) (p : Progress),
      R.alike (complete asked rounds p) (complete asked' rounds p)
  | 0, p => by
      unfold complete
      split
      · exact R.alike_pure _
      · exact R.alike_pure _
      · contradiction
  | rounds + 1, p => by
      unfold complete
      split
      · exact R.alike_pure _
      · contradiction
      · refine R.alike_bind (foldlM_alike R (require_alike R h) _ _) ?_
        intro q
        exact complete_alike h _ q

end Progress

theorem fetchSources_alike (h : ∀ unit, R.alike (asked unit) (asked' unit)) (limit : Nat)
    (sources : Dict Json) :
    R.alike (fetchSources asked limit sources) (fetchSources asked' limit sources) := by
  refine R.alike_bind (fillAll_alike R h sources) ?_
  intro filled
  refine R.alike_bind (Progress.complete_alike R h _ _) ?_
  intro result
  exact R.alike_pure _

/-- **Importers that answer alike complete a request alike.** -/
theorem fetch_alike (h : ∀ unit, R.alike (asked unit) (asked' unit)) (limit : Nat)
    (request : Json) : R.alike (fetch asked limit request) (fetch asked' limit request) := by
  unfold fetch
  split
  · split
    · refine R.alike_bind (fetchSources_alike R h limit _) ?_
      intro result
      exact R.alike_pure _
    · exact R.alike_pure _
  · exact R.alike_pure _

end

/-! ## A record of questions and answers -/

/-- Units that were asked for, in order, with the answers. -/
abbrev Log := List (String × ImportAnswer)

variable {σ : Type}

/-- An importer with a state, under a record of what it is asked and what it answers. -/
def recorded (importer : Importer (StateM σ)) : Importer (StateM (σ × Log)) := fun unit s =>
  let answer := importer unit s.1
  (answer.1, (answer.2, s.2 ++ [(unit, answer.1)]))

/-- A computation and the same one under a record: results and states agree, and the record only
gets longer. -/
def underRecord (σ : Type) : Likeness (StateM σ) (StateM (σ × Log)) where
  alike {_} x y := ∀ (s : σ) (log : Log),
    ∃ more, y.run (s, log) = ((x.run s).1, ((x.run s).2, log ++ more))
  alike_pure a := fun s log => ⟨[], by rw [List.append_nil]; rfl⟩
  alike_bind := by
    intro _ _ x y f g hxy hfg s log
    obtain ⟨more, hy⟩ := hxy s log
    obtain ⟨more', hg⟩ := hfg (x.run s).1 (x.run s).2 (log ++ more)
    refine ⟨more ++ more', ?_⟩
    rw [StateT.run_bind, StateT.run_bind, hy, ← List.append_assoc]
    exact hg

theorem recorded_alike (importer : Importer (StateM σ)) (unit : String) :
    (underRecord σ).alike (importer unit) (recorded importer unit) :=
  fun _ _ => ⟨[_], rfl⟩

/-- **Keeping a record changes nothing but the record.** -/
theorem fetch_recorded (importer : Importer (StateM σ)) (limit : Nat) (request : Json) (s : σ) :
    ∃ log, (fetch (recorded importer) limit request).run (s, [])
      = (((fetch importer limit request).run s).1,
          (((fetch importer limit request).run s).2, log)) :=
  fetch_alike (underRecord σ) (recorded_alike importer) limit request s []

/-- A computation under a record, and the same one under a record that has begun before. -/
def behindRecord (σ : Type) (old : Log) : Likeness (StateM (σ × Log)) (StateM (σ × Log)) where
  alike {_} x y := ∀ (s : σ) (log : Log),
    y.run (s, old ++ log)
      = ((x.run (s, log)).1, ((x.run (s, log)).2.1, old ++ (x.run (s, log)).2.2))
  alike_pure _ := fun _ _ => rfl
  alike_bind := by
    intro _ _ x y f g hxy hfg s log
    rw [StateT.run_bind, StateT.run_bind, hxy]
    exact hfg (x.run (s, log)).1 (x.run (s, log)).2.1 (x.run (s, log)).2.2

theorem recorded_alike_behind (importer : Importer (StateM σ)) (old : Log) (unit : String) :
    (behindRecord σ old).alike (recorded importer unit) (recorded importer unit) := by
  intro s log
  show (_, (_, old ++ log ++ _)) = _
  rw [List.append_assoc]
  rfl

/-- What was recorded before a completion has no part in it. -/
theorem complete_behind (importer : Importer (StateM σ)) (rounds : Nat) (p : Progress) (s : σ)
    (old : Log) :
    (Progress.complete (recorded importer) rounds p).run (s, old)
      = (((Progress.complete (recorded importer) rounds p).run (s, [])).1,
          (((Progress.complete (recorded importer) rounds p).run (s, [])).2.1,
            old ++ ((Progress.complete (recorded importer) rounds p).run (s, [])).2.2)) := by
  have h := Progress.complete_alike (behindRecord σ old) (recorded_alike_behind importer old)
    rounds p s []
  rwa [List.append_nil] at h

/-! ## Importers that always answer the same -/

/-- Fixed answers, as an importer with a state that it does not use. -/
def steady (answers : String → ImportAnswer) : Importer (StateM Unit) := fun unit s =>
  (answers unit, s)

/-- A computation without effects and the same one with a state that never changes. -/
def besideState (σ : Type) : Likeness Id (StateM σ) where
  alike {_} x y := ∀ s, y.run s = (x.run, s)
  alike_pure _ := fun _ => rfl
  alike_bind := by
    intro _ _ x y f g hxy hfg s
    rw [StateT.run_bind, hxy]
    exact hfg x.run s

theorem fetch_steady (answers : String → ImportAnswer) (limit : Nat) (request : Json) :
    (fetch (steady answers) limit request).run ()
      = ((fetch (m := Id) answers limit request).run, ()) :=
  fetch_alike (besideState Unit) (fun _ _ => rfl) limit request ()

end SolFront.Import
