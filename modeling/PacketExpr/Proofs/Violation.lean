import PacketExpr.Proofs.Except

/-!
# The first violated rule

Checks are made one after the other, and the first one that fails ends them.  What they do is stated
here apart from how they are programmed: there is a list of rules, each of them can be violated by
what is checked, and the checks report the violation of the first rule for which there is one.

A rule says by itself when it is violated and with which error.  It may well be violated together
with rules before it or behind it.
-/

namespace PacketExpr

variable {ρ ρ' ε ε' α β : Type} {Violates : ρ → ε → Prop} {Violates' : ρ' → ε' → Prop}
  {rules others : List ρ} {rule : ρ} {error : ε}

/-- A rule of the list is violated with the error, and no rule before it is violated. -/
inductive FirstViolation (Violates : ρ → ε → Prop) : List ρ → ε → Prop where
  | here {rule : ρ} {rules : List ρ} {error : ε} (violated : Violates rule error) :
      FirstViolation Violates (rule :: rules) error
  | later {rule : ρ} {rules : List ρ} {error : ε} (kept : ∀ other, ¬Violates rule other)
      (following : FirstViolation Violates rules error) :
      FirstViolation Violates (rule :: rules) error

/-- None of the rules is violated. -/
def AllKept (Violates : ρ → ε → Prop) (rules : List ρ) : Prop :=
  ∀ rule ∈ rules, ∀ error, ¬Violates rule error

/-- A check fails if and only if one of the rules is violated, and it reports the first one. -/
def Reports (Violates : ρ → ε → Prop) (rules : List ρ) (check : Except ε α) : Prop :=
  ∀ error, check = .error error ↔ FirstViolation Violates rules error

@[simp]
theorem not_firstViolation_nil : ¬FirstViolation Violates [] error := nofun

/-- The first violation is one of the first rule, or of a later rule while the first one is kept. -/
theorem firstViolation_cons_iff :
    FirstViolation Violates (rule :: rules) error ↔
      Violates rule error ∨
        (∀ other, ¬Violates rule other) ∧ FirstViolation Violates rules error := by
  constructor
  · rintro (violated | ⟨kept, following⟩)
    · exact Or.inl violated
    · exact Or.inr ⟨kept, following⟩
  · rintro (violated | ⟨kept, following⟩)
    · exact .here violated
    · exact .later kept following

@[simp]
theorem allKept_nil : AllKept Violates [] := nofun

@[simp]
theorem allKept_cons_iff :
    AllKept Violates (rule :: rules) ↔ (∀ error, ¬Violates rule error) ∧ AllKept Violates rules :=
  List.forall_mem_cons

/-- Later rules come up only where all rules in front are kept. -/
theorem firstViolation_append_iff :
    FirstViolation Violates (rules ++ others) error ↔
      FirstViolation Violates rules error ∨
        AllKept Violates rules ∧ FirstViolation Violates others error := by
  induction rules with
  | nil => simp
  | cons rule rules ih =>
      simp only [List.cons_append, firstViolation_cons_iff, ih, allKept_cons_iff, and_or_left,
        or_assoc, and_assoc]

/-- Rules are all kept unless one of them is the first that is not. -/
theorem allKept_iff : AllKept Violates rules ↔ ∀ error, ¬FirstViolation Violates rules error := by
  induction rules with
  | nil => simp
  | cons rule rules ih =>
      simp only [allKept_cons_iff, ih, firstViolation_cons_iff, not_or, not_and, forall_and]
      constructor
      · rintro ⟨kept, keptLater⟩
        exact ⟨kept, fun error _ => keptLater error⟩
      · rintro ⟨kept, keptLater⟩
        exact ⟨kept, fun error => keptLater error kept⟩

/-- Rules can be stated in other terms, with their errors wrapped into others. -/
theorem firstViolation_map_iff {restate : ρ → ρ'} {wrap : ε → ε'}
    (same : ∀ rule ∈ rules, ∀ wrapped, Violates' (restate rule) wrapped ↔
      ∃ error, Violates rule error ∧ wrapped = wrap error) {wrapped : ε'} :
    FirstViolation Violates' (rules.map restate) wrapped ↔
      ∃ error, FirstViolation Violates rules error ∧ wrapped = wrap error := by
  induction rules with
  | nil => simp
  | cons rule rules ih =>
      rcases List.forall_mem_cons.mp same with ⟨sameFirst, sameLater⟩
      have kept_iff : (∀ other, ¬Violates' (restate rule) other) ↔
          ∀ other, ¬Violates rule other := by
        simp only [sameFirst, not_exists, not_and]
        constructor
        · intro kept error violated
          exact kept (wrap error) error violated rfl
        · intro kept _ error violated _
          exact kept error violated
      rw [List.map_cons, firstViolation_cons_iff, sameFirst, kept_iff, ih sameLater]
      simp only [firstViolation_cons_iff, or_and_right, exists_or, and_assoc, exists_and_left]

namespace Reports

variable {check first : Except ε α} {next : α → Except ε β}

theorem allKept (reports : Reports Violates rules check) {value : α}
    (accepted : check = .ok value) : AllKept Violates rules := by
  apply allKept_iff.mpr
  intro error violation
  have failed := (reports error).mpr violation
  rw [accepted] at failed
  cases failed

theorem of_iff (same : ∀ error, check = .error error ↔ Violates rule error) :
    Reports Violates [rule] check := by
  intro error
  simp [firstViolation_cons_iff, same]

/-- What is checked next reports violations of the rules that come next. -/
theorem bind (reports : Reports Violates rules first)
    (reportsNext : ∀ value, first = .ok value → Reports Violates others (next value)) :
    Reports Violates (rules ++ others) (first >>= next) := by
  intro error
  rw [bind_eq_error_iff, firstViolation_append_iff, reports error]
  apply or_congr_right
  constructor
  · rintro ⟨value, accepted, failed⟩
    exact ⟨reports.allKept accepted, (reportsNext value accepted error).mp failed⟩
  · rintro ⟨kept, violation⟩
    cases outcome : first with
    | error fault => exact absurd ((reports fault).mp outcome) (allKept_iff.mp kept fault)
    | ok value => exact ⟨value, rfl, (reportsNext value outcome error).mpr violation⟩

theorem map (reports : Reports Violates rules check) (change : α → β) :
    Reports Violates rules (change <$> check) := by
  intro error
  rw [map_eq_error_iff, reports error]

theorem bind_pure (reports : Reports Violates rules check) (change : α → β) :
    Reports Violates rules (check >>= fun value => pure (change value)) := by
  rw [← map_eq_pure_bind]
  exact reports.map change

/-- Rules that cannot be violated may be added. -/
theorem append_kept (reports : Reports Violates rules check) (kept : AllKept Violates others) :
    Reports Violates (rules ++ others) check := by
  intro error
  rw [firstViolation_append_iff, reports error]
  simp [allKept_iff.mp kept error]

theorem kept_append (kept : AllKept Violates others) (reports : Reports Violates rules check) :
    Reports Violates (others ++ rules) check := by
  intro error
  rw [firstViolation_append_iff, reports error]
  simp [allKept_iff.mp kept error, kept]

theorem mapError {restate : ρ → ρ'} {wrap : ε → ε'} (reports : Reports Violates rules check)
    (same : ∀ rule ∈ rules, ∀ wrapped, Violates' (restate rule) wrapped ↔
      ∃ error, Violates rule error ∧ wrapped = wrap error) :
    Reports Violates' (rules.map restate) (check.mapError wrap) := by
  intro wrapped
  rw [mapError_eq_error_iff, firstViolation_map_iff same]
  apply exists_congr
  intro error
  rw [reports error]

/-- The same checks report violations of rules that are stated in other terms. -/
theorem restate {Violates' : ρ' → ε → Prop} {restate : ρ → ρ'}
    (reports : Reports Violates rules check)
    (same : ∀ rule ∈ rules, ∀ error, Violates' (restate rule) error ↔ Violates rule error) :
    Reports Violates' (rules.map restate) check := by
  have sameErrors : ∀ rule ∈ rules, ∀ error, Violates' (restate rule) error ↔
      ∃ fault, Violates rule fault ∧ error = id fault := by
    simpa using same
  intro error
  rw [reports error, firstViolation_map_iff sameErrors]
  simp

end Reports

end PacketExpr
