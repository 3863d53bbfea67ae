import Bundler.Proofs.Lowering.Requires

/-!
# The order of the specifiers

The lowering goes over the statements of a module twice: first over its imports, then over its
exports. The specifiers that it tells stand in this order, each where it comes first. That is the
order in which the statements are written if none of its imports stands behind an export from another
module; otherwise it need not be.

* `Plan.asks_lowerOrder`: when the order of the statements is that of the lowering;
* `specifiers_of_lower`: the specifiers of a lowered module.
-/

namespace Bundler

open Script Lowering

namespace Script

/-- No statement that imports from a module stands behind one that exports from one. -/
def ImportsFirst (body : List TopLevel) : Prop :=
  body.Pairwise fun one other =>
    one.asks.isSome = true → other.isImport = true → one.isImport = true

end Script

namespace Lowering

theorem Plan.asks_lowerOrder {program : Program} (h : ImportsFirst program.body) :
    (lowerOrder program).filterMap TopLevel.asks = program.asks := by
  unfold lowerOrder Program.asks
  generalize program.body = body at h
  induction body with
  | nil => rfl
  | cons first more ih =>
    obtain ⟨hfirst, hmore⟩ := List.pairwise_cons.1 h
    have ih := ih hmore
    cases himport : first.isImport with
    | true =>
      rw [List.filter_cons_of_pos himport, List.filter_cons_of_neg (by simp [himport]),
        List.cons_append, List.filterMap_cons, List.filterMap_cons, ih]
    | false =>
      rw [List.filter_cons_of_neg (by simp [himport]), List.filter_cons_of_pos (by simp [himport])]
      cases hasks : first.asks with
      | none =>
        rw [List.filterMap_append, List.filterMap_cons_none hasks, List.filterMap_cons_none hasks,
          ← List.filterMap_append, ih]
      | some ask =>
        -- No import follows, so the first pass leaves all of the statements to the second one.
        have hrest : ∀ other ∈ more, other.isImport = false := by
          intro other hother
          rw [← Bool.not_eq_true]
          intro hlate
          have := hfirst other hother (by rw [hasks]; rfl) hlate
          rw [himport] at this
          cases this
        rw [List.filter_eq_nil_iff.2 fun other hother => by simp [hrest other hother],
          List.filter_eq_self.2 fun other hother => by simp [hrest other hother], List.nil_append]

end Lowering

/-- The specifiers of a lowered module are those of its imports and then those of its exports from
    other modules, both in the order in which they are written, each where it comes first. So they
    stand in the order in which they are written where no import stands behind such an export. -/
theorem specifiers_of_lower {id source : String} {lowered : Lowered}
    (h : lower id source = .ok lowered) :
    ∃ program, Program.read .module source = .ok program ∧
      lowered.specifiers =
        (((Plan.lowerOrder program).filterMap TopLevel.asks).map (·.2)).eraseDups ∧
      (ImportsFirst program.body → lowered.specifiers = (program.asks.map (·.2)).eraseDups) := by
  obtain ⟨subject, -, -, hmade, hspecifiers⟩ := made_of_lower h
  rw [Plan.make_specifiers_eq] at hspecifiers
  refine ⟨subject.program, hmade.read, hspecifiers, fun hfirst => ?_⟩
  rw [hspecifiers, Plan.asks_lowerOrder hfirst]

/-- An import that stands behind an export from another module comes first. -/
theorem specifiers_of_lower_late :
    ∃ lowered, lower "main.js" "export * from './a.js';\nimport './b.js';\n" = .ok lowered ∧
      lowered.specifiers = ["./b.js", "./a.js"] ∧
      ∃ program, Program.read .module "export * from './a.js';\nimport './b.js';\n" = .ok program ∧
        lowered.specifiers =
          (((Plan.lowerOrder program).filterMap TopLevel.asks).map (·.2)).eraseDups ∧
        (ImportsFirst program.body → lowered.specifiers = (program.asks.map (·.2)).eraseDups) := by
  have hlate : (lower "main.js" "export * from './a.js';\nimport './b.js';\n").toOption.map
      Lowered.specifiers = some ["./b.js", "./a.js"] := by
    decide +kernel
  obtain ⟨lowered, hlower⟩ := exists_lower_of_isOk (by decide +kernel :
    (lower "main.js" "export * from './a.js';\nimport './b.js';\n").isOk = true)
  rw [hlower] at hlate
  exact ⟨lowered, hlower, Option.some.inj hlate, specifiers_of_lower hlower⟩

end Bundler
