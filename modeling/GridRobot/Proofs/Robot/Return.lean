import GridRobot.Campaign.Levels
import GridRobot.Proofs.Playback.Ends
import GridRobot.Proofs.Robot.Cleared
import GridRobot.Proofs.Robot.Coins

/-!
# The way back

The instructions of a trace can be taken back one by one, the last one first. A robot that has come
through a trace retraces its way like this: the cells on it are free, since it has been on them, and
cleared, since it went on from them. Only the cell of its start is different. The robot has not
looked at it before the first instruction, so there it may find a coin, or a goal.
-/

namespace GridRobot

/-- The instruction that takes another one back. -/
def Instruction.inverse : Instruction → Instruction
  | move => moveBack
  | moveBack => move
  | turnLeft => turnRight
  | turnRight => turnLeft

/-- The instructions that take those of a trace back, the last one first. -/
def Instruction.wayBack (t : List Instruction) : List Instruction := (t.map inverse).reverse

@[simp] theorem Instruction.length_wayBack (t : List Instruction) :
    (wayBack t).length = t.length := by
  simp [wayBack]

theorem Instruction.wayBack_cons (i : Instruction) (t : List Instruction) :
    wayBack (i :: t) = wayBack t ++ [i.inverse] := by
  simp [wayBack]

namespace Robot

variable {l : Level} {r s next : Robot} {i : Instruction} {t : List Instruction}

/-- Where an instruction has led, the inverse one leads back from, if the robot may enter the cell
that it came from. -/
theorem Lands.inverse (h : Lands l r i next) (hfree : l.obstacle? r.position = none)
    (hposition : s.position = next.position) (hfacing : s.facing = next.facing) :
    ∃ back, Lands l s i.inverse back ∧ back.position = r.position ∧ back.facing = r.facing := by
  cases h with
  | move =>
    have hcell : s.position.neighbor s.facing.reverse = r.position := by
      rw [hposition, hfacing]
      exact Position.neighbor_reverse_neighbor _ _
    exact ⟨_, .moveBack (by rw [hcell, hfree]), hcell, hfacing⟩
  | moveBack =>
    have hcell : s.position.neighbor s.facing = r.position := by
      have hback := Position.neighbor_reverse_neighbor r.position r.facing.reverse
      rw [Direction.reverse_reverse] at hback
      rw [hposition, hfacing]
      exact hback
    exact ⟨_, .move (by rw [hcell, hfree]), hcell, hfacing⟩
  | turnLeft =>
    refine ⟨_, .turnRight, hposition, ?_⟩
    rw [note_facing, hfacing]
    exact Direction.turnRight_turnLeft _
  | turnRight =>
    refine ⟨_, .turnLeft, hposition, ?_⟩
    rw [note_facing, hfacing]
    exact Direction.turnLeft_turnRight _

/-- The robot `back` has returned from where `turned` was to where `there` was: it stands and faces
as `there`, and it has found nothing but perhaps the first coin, or a goal, on the cell of
`home`. -/
structure Retraces (l : Level) (home turned there back : Robot) : Prop where
  position : back.position = there.position
  facing : back.facing = there.facing
  crashed : back.crashed = false
  kept : turned.coins ⊆ back.coins
  found : ∀ id ∈ back.coins, id ∈ turned.coins ∨
    ∃ c, l.entity? .coin home.position = some c ∧ c.id = id
  won : back.won = true → l.Has .goal home.position

/-- To take an instruction back is a step on the way back to the robot before it. -/
theorem step_inverse (hr : r.terminal = false) (hfree : l.obstacle? r.position = none)
    (hnext : (step l r i).terminal = false) (hs : s.terminal = false)
    (hposition : s.position = (step l r i).position) (hfacing : s.facing = (step l r i).facing) :
    Retraces l r s r (step l s i.inverse) := by
  rcases step_cases (l := l) i hr with ⟨b, -, he⟩ | ⟨-, next, hl, he⟩
  · rw [he, crash_terminal] at hnext
    exact absurd hnext (by decide)
  · rw [he, checkGoal_position, collect_position] at hposition
    rw [he, checkGoal_facing, collect_facing] at hfacing
    obtain ⟨back, hback, hposition', hfacing'⟩ := hl.inverse hfree hposition hfacing
    obtain ⟨hcrashed, hwon⟩ := terminal_eq_false_iff.mp hs
    rw [hback.step_eq hs]
    refine ⟨?_, ?_, ?_, ?_, ?_, ?_⟩
    · rw [checkGoal_position, collect_position, hposition']
    · rw [checkGoal_facing, collect_facing, hfacing']
    · rw [checkGoal_crashed, collect_crashed, hback.crashed, hcrashed]
    · intro id hid
      rw [checkGoal_coins, mem_coins_collect_iff, hback.coins]
      exact .inl hid
    · intro id hid
      rwa [checkGoal_coins, mem_coins_collect_iff, hback.coins, hposition'] at hid
    · intro hw
      rw [checkGoal_won_iff, collect_won, hback.won, hwon, collect_position, hposition'] at hw
      exact hw.resolve_left (by decide)

/-- A robot that has not set out is where it is. -/
theorem Retraces.refl (home : Robot) (hs : s.terminal = false) : Retraces l home s s s := by
  obtain ⟨hcrashed, hwon⟩ := terminal_eq_false_iff.mp hs
  refine ⟨rfl, rfl, hcrashed, List.Subset.refl _, fun _ hid => .inl hid, ?_⟩
  intro hw
  rw [hwon] at hw
  exact absurd hw (by decide)

/-- On its way back to a cell that it had cleared, a robot is not stopped and finds nothing. -/
theorem Retraces.of_cleared {home turned there back : Robot} (h : Retraces l home turned there back)
    (hcleared : home.Cleared l) (hcoins : home.coins ⊆ turned.coins) :
    back.terminal = false ∧ back.coins ⊆ turned.coins := by
  constructor
  · refine terminal_eq_false_iff.mpr ⟨h.crashed, ?_⟩
    exact Bool.eq_false_iff.mpr fun hw => hcleared.goal (h.won hw)
  · intro id hid
    rcases h.found id hid with hturned | ⟨c, hfound, rfl⟩
    · exact hturned
    · exact hcoins (hcleared.coin c hfound)

/-- A robot on a free cell only ever enters free cells. -/
theorem obstacle?_step (i : Instruction) (hfree : l.obstacle? r.position = none) :
    l.obstacle? (step l r i).position = none := by
  by_cases ht : r.terminal = true
  · rw [step_of_terminal ht, hfree]
  · rcases step_cases (l := l) i (by simpa using ht) with ⟨b, -, he⟩ | ⟨-, next, hl, he⟩
    · rw [he]
      exact hfree
    · rw [he, checkGoal_position, collect_position]
      rcases hl.position with hp | hp
      · rw [hp, hfree]
      · exact hp

/-- After `k` instructions of the way back, a robot is where it was `k` instructions before it
turned. -/
theorem after_wayBack {k : Nat} (hr : r.terminal = false) (hfree : l.obstacle? r.position = none)
    (hend : (run l r t).terminal = false) (hk : k ≤ t.length) :
    Retraces l r (run l r t) (after l r t (t.length - k))
      (after l (run l r t) (Instruction.wayBack t) k) := by
  -- Without its first instruction, a trace leads from the next cell, and that one has been cleared.
  induction t generalizing r k with
  | nil =>
    obtain rfl : k = 0 := by simpa using hk
    exact .refl r hr
  | cons i t ih =>
    have hnext : (step l r i).terminal = false := running_of_run hend
    have hcoins : (step l r i).coins ⊆ (run l r (i :: t)).coins :=
      fun _ hid => (mem_coins_run_iff t).mpr (.inl hid)
    rw [Instruction.wayBack_cons]
    by_cases hle : k ≤ t.length
    · have hback := ih hnext (obstacle?_step i hfree) hend hle
      obtain ⟨hrun, hfound⟩ := hback.of_cleared (step_cleared i hnext) hcoins
      rw [after_append_of_le (by simpa using hle), List.length_cons, Nat.sub_add_comm hle,
        after_cons_succ]
      exact ⟨hback.position, hback.facing, hback.crashed, hback.kept,
        fun id hid => .inl (hfound hid),
        fun hw => absurd hw (by simp [(terminal_eq_false_iff.mp hrun).2])⟩
    · -- The last step of the way back takes the first instruction back, onto the cell of `r`.
      obtain rfl : k = t.length + 1 := by
        simp only [List.length_cons] at hk
        omega
      have hback := ih hnext (obstacle?_step i hfree) hend (Nat.le_refl _)
      obtain ⟨hrun, hfound⟩ := hback.of_cleared (step_cleared i hnext) hcoins
      rw [Nat.sub_self, after_zero] at hback
      have hlast := step_inverse hr hfree hnext hrun hback.position hback.facing
      have hstep : after l (run l r (i :: t)) (Instruction.wayBack t ++ [i.inverse])
          (t.length + 1) = step l (after l (run l r (i :: t)) (Instruction.wayBack t) t.length)
            i.inverse := by
        rw [after_succ (i := i.inverse) (by simp), after_append_of_le (by simp)]
      rw [hstep, List.length_cons, Nat.sub_self, after_zero]
      exact ⟨hlast.position, hlast.facing, hlast.crashed,
        fun id hid => hlast.kept (hback.kept hid),
        fun id hid => (hlast.found id hid).imp_left fun hid => hfound hid, hlast.won⟩

/-- From a free cell, let a running robot come through a trace without a crash or a win. On the way
back it never crashes: after each instruction it stands and faces as it did at that point of the way
there, and so in the end as at first. The only coin that it may find is the first one on the cell
from which it set out, and it only wins if there is a goal on that cell. -/
theorem run_wayBack (hr : r.terminal = false) (hinside : l.Inside r.position)
    (hwall : ¬l.Has .wall r.position) (hend : (run l r t).terminal = false) :
    let turned := run l r t
    let back := after l turned (Instruction.wayBack t)
    (∀ k ≤ t.length,
      (back k).crashed = false ∧
      (back k).position = (after l r t (t.length - k)).position ∧
      (back k).facing = (after l r t (t.length - k)).facing ∧
      turned.coins ⊆ (back k).coins ∧
      (∀ id ∈ (back k).coins, id ∈ turned.coins ∨
        ∃ c, l.entity? .coin r.position = some c ∧ c.id = id) ∧
      ((back k).won = true → l.Has .goal r.position)) ∧
    run l turned (Instruction.wayBack t) = back t.length ∧
    (back t.length).position = r.position ∧ (back t.length).facing = r.facing := by
  intro turned back
  have hfree : l.obstacle? r.position = none :=
    Level.obstacle?_eq_none_iff.mpr ⟨hinside, Level.entity?_eq_none_iff.mpr hwall⟩
  have hback (k : Nat) (hk : k ≤ t.length) :
      Retraces l r turned (after l r t (t.length - k)) (back k) := after_wayBack hr hfree hend hk
  refine ⟨?_, ?_, ?_⟩
  · intro k hk
    obtain ⟨hposition, hfacing, hcrashed, hkept, hfound, hwon⟩ := hback k hk
    exact ⟨hcrashed, hposition, hfacing, hkept, hfound, hwon⟩
  · rw [← Instruction.length_wayBack t]
    exact congrArg (run l turned) List.take_length.symm
  · have hhome := hback t.length (Nat.le_refl _)
    rw [Nat.sub_self, after_zero] at hhome
    exact ⟨hhome.position, hhome.facing⟩

/-- The robot backs off a coin that it has not taken, goes on to the south, and finds the coin when
it returns. -/
theorem run_wayBack_loopLogic :
    let l := Campaign.loopLogic
    let r : Robot := { position := ⟨4, 0⟩, facing := .east }
    let t : List Instruction := [.moveBack, .turnRight, .move, .turnLeft]
    let back := run l (run l r t) [.turnRight, .moveBack, .turnLeft, .move]
    r.terminal = false ∧ l.Inside r.position ∧ ¬l.Has .wall r.position ∧
    (run l r t).terminal = false ∧ (run l r t).position = ⟨3, 1⟩ ∧
    back.crashed = false ∧ back.position = ⟨4, 0⟩ ∧ back.facing = .east ∧
    (∀ id ∈ back.coins, id = "c2") ∧ back.coins = ["c2"] := by
  intro l r t back
  have hr : r.terminal = false := rfl
  have hinside : l.Inside r.position := by decide
  have hwall : ¬l.Has .wall r.position := by decide
  have hend : (run l r t).terminal = false := by decide
  obtain ⟨hway, hlast, hposition, hfacing⟩ := run_wayBack hr hinside hwall hend
  obtain ⟨hcrashed, -, -, -, hfound, -⟩ := hway t.length (Nat.le_refl _)
  have hback : back = after l (run l r t) (Instruction.wayBack t) t.length := hlast
  rw [← hback] at hposition hfacing hcrashed hfound
  refine ⟨hr, hinside, hwall, hend, by decide, hcrashed, hposition, hfacing, ?_, by decide⟩
  intro id hid
  rcases hfound id hid with hturned | ⟨c, hc, rfl⟩
  · have hnone : (run l r t).coins = [] := by decide
    rw [hnone] at hturned
    exact absurd hturned List.not_mem_nil
  · have hcoin : (l.entity? .coin r.position).map Entity.id = some "c2" := by decide
    rw [hc] at hcoin
    exact Option.some_inj.mp hcoin

end Robot

end GridRobot
