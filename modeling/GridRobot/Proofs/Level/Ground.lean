import Mathlib.Logic.Relation
import GridRobot.Proofs.Robot.Step

/-!
# What a robot can tell of a level

A robot only ever stands on its start or on the board, and there it can tell whether a cell has a
wall, whether it has a goal, and which coin it would take. Levels that agree on this have the same
ground. `Unfelt` lists the changes of a level, one kind at a time, that leave its ground as it is;
`sameGround_of_eqvGen` says so of any number of them.
-/

namespace GridRobot

/-- What tells an entity from others of its kind: a coin has its id, and all else looks alike. -/
def Entity.mark (e : Entity) : String := if e.kind = .coin then e.id else ""

/-- What a robot that looks for a kind on a cell can tell of an entity. -/
def Entity.told? (k : EntityKind) (p : Position) (e : Entity) : Option String :=
  if e.kind = k ∧ e.position = p then some e.mark else none

namespace Entity

variable {k : EntityKind} {p : Position} {d e : Entity}

theorem told?_of_ne (h : e.position ≠ p) : e.told? k p = none := if_neg fun hs => h hs.2

theorem told?_rename (id : String) (h : e.kind ≠ .coin) :
    told? k p { e with id } = e.told? k p := by
  simp only [told?, mark, h, ↓reduceIte]

/-- Of two entities that differ in kind or cell, at most one is told of. -/
theorem told?_apart (h : d.kind ≠ e.kind ∨ d.position ≠ e.position) :
    d.told? k p = none ∨ e.told? k p = none := by
  by_cases hd : d.kind = k ∧ d.position = p
  · obtain ⟨rfl, rfl⟩ := hd
    exact .inr (if_neg fun hs => h.elim (fun hk => hk hs.1.symm) fun hp => hp hs.2.symm)
  · exact .inl (if_neg hd)

theorem told?_isSome_of_same (hk : d.kind = e.kind) (hp : d.position = e.position)
    (h : e.told? k p ≠ none) : (d.told? k p).isSome = true := by
  have he : e.kind = k ∧ e.position = p := Decidable.of_not_not fun hne => h (if_neg hne)
  rw [told?, hk, hp, if_pos he]
  rfl

end Entity

namespace Level

variable {l m n : Level} {k : EntityKind} {p : Position}

/-- The cells that a robot can touch: those of the board, and the one on which it starts. -/
def Touchable (l : Level) (p : Position) : Prop := l.Inside p ∨ p = l.start

instance (l : Level) (p : Position) : Decidable (l.Touchable p) :=
  inferInstanceAs (Decidable (_ ∨ _))

/-- Two levels are the same to a robot: it sets out in the same way on boards of one size, and on
each cell that it can touch there is a wall in both or in none, a goal in both or in none, and the
same coin to be taken, or none. -/
structure SameGround (l m : Level) : Prop where
  size : l.size = m.size
  start : l.start = m.start
  heading : l.heading = m.heading
  wall : ∀ p, l.Touchable p → (l.Has .wall p ↔ m.Has .wall p)
  goal : ∀ p, l.Touchable p → (l.Has .goal p ↔ m.Has .goal p)
  coin : ∀ p, l.Touchable p →
    (l.entity? .coin p).map Entity.id = (m.entity? .coin p).map Entity.id

namespace SameGround

theorem inside_iff (h : l.SameGround m) : l.Inside p ↔ m.Inside p := by
  rw [Inside, Inside, h.size]

theorem touchable_iff (h : l.SameGround m) : l.Touchable p ↔ m.Touchable p := by
  rw [Touchable, Touchable, h.inside_iff, h.start]

theorem refl (l : Level) : l.SameGround l :=
  ⟨rfl, rfl, rfl, fun _ _ => .rfl, fun _ _ => .rfl, fun _ _ => rfl⟩

theorem symm (h : l.SameGround m) : m.SameGround l where
  size := h.size.symm
  start := h.start.symm
  heading := h.heading.symm
  wall p hp := (h.wall p (h.touchable_iff.mpr hp)).symm
  goal p hp := (h.goal p (h.touchable_iff.mpr hp)).symm
  coin p hp := (h.coin p (h.touchable_iff.mpr hp)).symm

theorem trans (h : l.SameGround m) (h' : m.SameGround n) : l.SameGround n where
  size := h.size.trans h'.size
  start := h.start.trans h'.start
  heading := h.heading.trans h'.heading
  wall p hp := (h.wall p hp).trans (h'.wall p (h.touchable_iff.mp hp))
  goal p hp := (h.goal p hp).trans (h'.goal p (h.touchable_iff.mp hp))
  coin p hp := (h.coin p hp).trans (h'.coin p (h.touchable_iff.mp hp))

/-- Something keeps the robot out of a cell in both levels or in none, though it need not be a wall
of the same id. -/
theorem obstacle?_eq_none_iff (h : l.SameGround m) :
    l.obstacle? p = none ↔ m.obstacle? p = none := by
  rw [Level.obstacle?_eq_none_iff, Level.obstacle?_eq_none_iff, entity?_eq_none_iff,
    entity?_eq_none_iff, h.inside_iff]
  exact and_congr_right fun hp => not_congr (h.wall p (.inl (h.inside_iff.mpr hp)))

end SameGround

/-- The first entity that is told of is the one that is found. -/
theorem map_mark_entity? (l : Level) (k : EntityKind) (p : Position) :
    (l.entity? k p).map Entity.mark = l.entities.findSome? (Entity.told? k p) := by
  rw [entity?]
  induction l.entities with
  | nil => rfl
  | cons e es ih =>
    by_cases he : e.kind = k ∧ e.position = p
    · simp [Entity.told?, he]
    · rw [List.find?_cons_of_neg (by simpa using he), List.findSome?_cons_of_isNone (by
        simp [Entity.told?, he]), ih]

theorem map_mark_coin (l : Level) (p : Position) :
    (l.entity? .coin p).map Entity.mark = (l.entity? .coin p).map Entity.id := by
  cases h : l.entity? .coin p with
  | none => rfl
  | some c => simp [Entity.mark, (entity?_eq_some h).2.1]

/-- With other entities a level has the same ground if a search of either list for any kind tells
the same of each cell that matters. -/
theorem sameGround_of_told {es : List Entity}
    (h : ∀ k p, l.Touchable p →
      l.entities.findSome? (Entity.told? k p) = es.findSome? (Entity.told? k p)) :
    l.SameGround { l with entities := es } := by
  have hmark (k : EntityKind) (p : Position) (hp : l.Touchable p) :
      (l.entity? k p).map Entity.mark =
        (entity? { l with entities := es } k p).map Entity.mark := by
    rw [map_mark_entity?, map_mark_entity?, h k p hp]
  have hhas (k : EntityKind) (p : Position) (hp : l.Touchable p) :
      l.Has k p ↔ Has { l with entities := es } k p := by
    have hsome := congrArg Option.isSome (hmark k p hp)
    rw [Option.isSome_map, Option.isSome_map] at hsome
    rw [← entity?_isSome_iff, ← entity?_isSome_iff, hsome]
  refine ⟨rfl, rfl, rfl, hhas .wall, hhas .goal, ?_⟩
  intro p hp
  have hcoin := hmark .coin p hp
  rwa [map_mark_coin, map_mark_coin] at hcoin

/-- One change of a level that no robot can tell. -/
inductive Unfelt : Level → Level → Prop
  /-- The number of a level, its texts, its limits and its solution are not on the ground. -/
  | relabel (l : Level) (id : Int) (name description : String) (optimalBlocks : Int)
      (maxBlocks : Option Int) (palette : List BlockType) (solution : Program) :
      Unfelt l { l with id, name, description, optimalBlocks, maxBlocks, palette, solution }
  /-- Walls and goals are not told apart by their ids. -/
  | rename (l : Level) {before after : List Entity} {e : Entity} (id : String)
      (entities : l.entities = before ++ e :: after) (kind : e.kind ≠ .coin) :
      Unfelt l { l with entities := before ++ { e with id } :: after }
  /-- The order counts only among entities of one kind on one cell. -/
  | swap (l : Level) {before after : List Entity} {d e : Entity}
      (entities : l.entities = before ++ d :: e :: after)
      (apart : d.kind ≠ e.kind ∨ d.position ≠ e.position) :
      Unfelt l { l with entities := before ++ e :: d :: after }
  /-- Behind another one of its kind on its cell, an entity is never found. -/
  | hidden (l : Level) {before after : List Entity} {d e : Entity}
      (entities : l.entities = before ++ e :: after) (earlier : d ∈ before)
      (kind : d.kind = e.kind) (cell : d.position = e.position) :
      Unfelt l { l with entities := before ++ after }
  /-- Off the board nothing is met, except on the start. -/
  | remote (l : Level) {before after : List Entity} {e : Entity}
      (entities : l.entities = before ++ e :: after) (off : ¬l.Touchable e.position) :
      Unfelt l { l with entities := before ++ after }

theorem Unfelt.sameGround (h : l.Unfelt m) : l.SameGround m := by
  cases h with
  | relabel => exact ⟨rfl, rfl, rfl, fun _ _ => .rfl, fun _ _ => .rfl, fun _ _ => rfl⟩
  | rename id hes hk =>
    refine sameGround_of_told fun k p _ => ?_
    simp only [hes, List.findSome?_append, List.findSome?_cons, Entity.told?_rename id hk]
  | swap hes hapart =>
    refine sameGround_of_told fun k p _ => ?_
    simp only [hes, List.findSome?_append, List.findSome?_cons]
    rcases Entity.told?_apart (k := k) (p := p) hapart with hd | he
    · simp only [hd]
    · simp only [he]
  | @hidden before after d e hes hd hk hp =>
    refine sameGround_of_told fun k p _ => ?_
    simp only [hes, List.findSome?_append, List.findSome?_cons]
    by_cases he : e.told? k p = none
    · simp only [he]
    · have hsome : (before.findSome? (Entity.told? k p)).isSome = true :=
        List.findSome?_isSome_iff.mpr ⟨d, hd, Entity.told?_isSome_of_same hk hp he⟩
      obtain ⟨s, hs⟩ := Option.isSome_iff_exists.mp hsome
      rw [hs, Option.some_or, Option.some_or]
  | @remote before after e hes hoff =>
    refine sameGround_of_told fun k p hp => ?_
    have he : e.told? k p = none := Entity.told?_of_ne fun h => hoff (h ▸ hp)
    simp only [hes, List.findSome?_append, List.findSome?_cons, he]

/-- No number of such changes, made or taken back, can be told. -/
theorem sameGround_of_eqvGen (h : Relation.EqvGen Unfelt l m) : l.SameGround m := by
  have hequiv : Equivalence SameGround := ⟨.refl, .symm, .trans⟩
  exact hequiv.eqvGen_iff.mp (h.mono fun _ _ => Unfelt.sameGround)

end Level

end GridRobot
