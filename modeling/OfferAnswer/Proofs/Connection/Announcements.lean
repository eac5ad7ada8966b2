import Mathlib.Data.List.Chain
import OfferAnswer.Proofs.Connection.History

/-!
# What a connection announces

A listener that is there from the start hears the log `announced`. It is fed in one place only,
`moveTo`, and every call goes there at most once, after it has changed all that it changes. So one
call announces the state that it ends in, if that is another than before, and never a state on the
way to it (`announced_call`).

The rest is read off the log with the initial state put in front: of its neighbours no two are
equal, and its last state is the state of the machine (`Announced`). Closing moves to a state that
no call leaves, so nothing is announced after it.
-/

namespace OfferAnswer.ConnectionMachine

variable {m m' : ConnectionMachine} {s : ConnectionState} {h : List Call} {x : Call}

/-! ## One call -/

/-- What there is to announce when one state follows another: the later one, if it is a change. -/
def change? (before after : ConnectionState) : Option ConnectionState :=
  if after = before then none else some after

@[simp] theorem change?_self (s : ConnectionState) : change? s s = none := if_pos rfl

/-- Whether one machine comes from another and announced that change alone. -/
def Tells (m m' : ConnectionMachine) : Prop :=
  m'.announced = m.announced ++ (change? m.state m'.state).toList

theorem Tells.refl (m : ConnectionMachine) : Tells m m := by
  rw [Tells, change?_self]
  exact (List.append_nil _).symm

/-- What else is changed before the state is, does not show. -/
theorem Tells.of_frame {m₀ : ConnectionMachine} (h : Tells m₀ m') (hstate : m₀.state = m.state)
    (hlog : m₀.announced = m.announced) : Tells m m' := by
  rwa [Tells, hstate, hlog] at h

theorem tells_moveTo (m : ConnectionMachine) (s : ConnectionState) : Tells m (m.moveTo s) := by
  rw [moveTo]
  split
  · exact Tells.refl m
  · rename_i hne
    rw [Tells, change?, if_neg (Ne.symm hne)]
    rfl

theorem tells_evaluate (m : ConnectionMachine) : Tells m m.evaluate := by
  rw [evaluate]
  split
  · exact Tells.refl m
  · exact tells_moveTo m _

theorem announced_foldl_track (m : ConnectionMachine) (e : EndpointId) (cs : List IceComponent) :
    (cs.foldl (fun m c ↦ m.track e c) m).announced = m.announced := by
  induction cs generalizing m with
  | nil => rfl
  | cons c cs ih =>
    rw [List.foldl_cons, ih, track]
    split <;> rfl

/-- **One call announces one change at most**: the one from the state before to the state after. -/
theorem tells_call (m : ConnectionMachine) (x : Call) : Tells m (m.call x).2 := by
  cases x with
  | add e cs =>
    dsimp only [call]
    rw [addEndpoint]
    split
    · exact Tells.refl m
    · exact (tells_evaluate _).of_frame (state_foldl_track m e cs) (announced_foldl_track m e cs)
  | remove e => exact (tells_evaluate _).of_frame rfl rfl
  | ice e c s g =>
    dsimp only [call]
    rw [handleIce]
    split
    · exact (tells_evaluate _).of_frame rfl rfl
    · exact Tells.refl m
  | dtls e g =>
    dsimp only [call]
    rw [handleDtls]
    split
    · exact (tells_evaluate _).of_frame rfl rfl
    · exact Tells.refl m
  | restart =>
    dsimp only [call]
    rw [restart]
    split
    · exact Tells.refl m
    · exact (tells_evaluate _).of_frame rfl rfl
  | close => exact (tells_moveTo _ .closed).of_frame rfl rfl

theorem announced_run_snoc (h : List Call) (x : Call) :
    (run (h ++ [x])).announced =
      (run h).announced ++ (change? (run h).state (run (h ++ [x])).state).toList := by
  rw [run_snoc]
  exact tells_call (run h) x

/-! ## The log -/

/-- What a log is to its machine: together with the initial state, which is not announced, no two
neighbours are equal, and the last state is the one of the machine. -/
structure Faithful (m : ConnectionMachine) : Prop where
  /-- Every state differs from the one before. -/
  isChain : (.new :: m.announced).IsChain (· ≠ ·)
  /-- The last state is the state of the machine. -/
  getLast? : (.new :: m.announced).getLast? = some m.state

theorem Faithful.nil : Faithful {} := ⟨List.isChain_singleton _, rfl⟩

theorem Faithful.tells (hm : Faithful m) (h : Tells m m') : Faithful m' := by
  have hlog : .new :: m'.announced =
      (.new :: m.announced) ++ (change? m.state m'.state).toList := by rw [h, List.cons_append]
  by_cases hsame : m'.state = m.state
  · rw [hsame, change?_self, Option.toList_none, List.append_nil] at hlog
    exact ⟨hlog ▸ hm.isChain, by rw [hlog, hm.getLast?, hsame]⟩
  · rw [change?, if_neg hsame, Option.toList_some] at hlog
    constructor
    · rw [hlog, List.isChain_append]
      refine ⟨hm.isChain, List.isChain_singleton _, fun s hs t ht ↦ ?_⟩
      obtain rfl : m.state = s := Option.some_inj.mp (hm.getLast?.symm.trans hs)
      obtain rfl : m'.state = t := Option.some_inj.mp ht
      exact Ne.symm hsame
    · rw [hlog, List.getLast?_concat]

theorem faithful_run (h : List Call) : Faithful (run h) := by
  induction h using List.reverseRecOn with
  | nil => exact Faithful.nil
  | append_singleton h x ih =>
    rw [run_snoc]
    exact ih.tells (tells_call _ x)

/-! ## After closing -/

/-- No call reopens a connection. -/
theorem state_call_of_closed (hm : m.state = .closed) (x : Call) :
    (m.call x).2.state = .closed := by
  cases x with
  | add e cs => exact (state_addEndpoint_eq_closed m e cs).mpr hm
  | remove e => exact (state_removeEndpoint_eq_closed m e).mpr hm
  | ice e c s g => exact (state_handleIce_eq_closed m e c s g).mpr hm
  | dtls e g => exact (state_handleDtls_eq_closed m e g).mpr hm
  | restart => exact (state_restart_eq_closed m).mpr hm
  | close => exact state_moveTo _ _

theorem state_run_of_close (h later : List Call) :
    (run (h ++ .close :: later)).state = .closed := by
  induction later using List.reverseRecOn with
  | nil =>
    rw [run_snoc]
    exact state_moveTo _ _
  | append_singleton later x ih =>
    rw [← List.cons_append, ← List.append_assoc, run_snoc]
    exact state_call_of_closed ih x

theorem announced_run_of_close (h later : List Call) :
    (run (h ++ .close :: later)).announced = (run (h ++ [.close])).announced := by
  induction later using List.reverseRecOn with
  | nil => rfl
  | append_singleton later x ih =>
    have hbefore := state_run_of_close h later
    have hafter := state_run_of_close h (later ++ [x])
    rw [← List.cons_append, ← List.append_assoc] at hafter ⊢
    rw [announced_run_snoc, hbefore, hafter, change?_self, Option.toList_none, List.append_nil, ih]

/-! ## Histories -/

/-- **Changes are announced, each once.** After every history of calls:
one more call announces the state that it leads to, if that is another than before, and nothing
else;
no two states announced one after the other are equal, and the first is not the initial one;
the state is the one announced last, or the initial one as long as there was none;
and after a close nothing is announced any more, whatever is called. -/
theorem changes_announced (h : List Call) :
    (∀ x, ∃ told : Option ConnectionState,
      (run (h ++ [x])).announced = (run h).announced ++ told.toList ∧
      ∀ s, told = some s ↔ (run (h ++ [x])).state = s ∧ s ≠ (run h).state) ∧
    (run h).announced.IsChain (· ≠ ·) ∧
    (run h).announced.head? ≠ some .new ∧
    (run h).state = (run h).announced.getLast?.getD .new ∧
    ∀ later, (run (h ++ .close :: later)).announced = (run (h ++ [.close])).announced := by
  have hlog := faithful_run h
  refine ⟨fun x ↦ ⟨_, announced_run_snoc h x, fun s ↦ ?_⟩, hlog.isChain.tail, fun hnew ↦ ?_, ?_,
    announced_run_of_close h⟩
  · rw [change?]
    split
    · rename_i hsame
      refine iff_of_false nofun ?_
      rintro ⟨rfl, hne⟩
      exact hne hsame
    · rename_i hne
      rw [Option.some_inj]
      refine ⟨?_, And.left⟩
      rintro rfl
      exact ⟨rfl, hne⟩
  · -- the initial state stands in front of the log
    exact List.isChain_cons.mp hlog.isChain |>.1 .new hnew rfl
  · have hlast := hlog.getLast?
    rw [List.getLast?_cons, Option.some_inj] at hlast
    exact hlast.symm

/-- Events that change nothing and a second close are not heard. -/
example : (run [.add 1 [.rtp], .ice 1 .rtp .checking 0, .ice 1 .rtp .checking 0,
    .ice 1 .rtp .completed 0, .dtls 1 0, .add 2 [.rtp], .remove 2, .restart, .close, .close,
    .add 3 [.rtp]]).announced =
      [.checking, .connected, .completed, .new, .completed, .checking, .closed] := by decide

end OfferAnswer.ConnectionMachine
