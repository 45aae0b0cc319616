import Mathlib.Algebra.Ring.Int.Defs
import Mathlib.Algebra.Ring.Nat
import Mathlib.Logic.Function.Basic
import Mathlib.Logic.Relation
import Mathlib.Tactic.Common

/-!
# A client and a server connected by pipes

Two programs talk over pipes of bytes: one side only writes to a pipe, the other
only reads from it, and a read waits until all the bytes it asks for are there.
The client is a program that ends; the server runs a loop, one round after the
other.  `Step` lets either of them take its next action, so that a sequence of
steps is one of the possible schedulings.

The bytes in a pipe carry no structure of their own.  For the theorems each one
remembers the item it was written in, its position there and the size of the
item (`Piece`); a read that takes anything but one whole item of the kind it
asks for is recorded in `misread`.

What the two programs agree on is said without pipes: in `Meets` every item is
handed over at the moment it is written.  The actions of the two sides commute
(`act_comm`), so that the order of the actions does not matter: whatever the
scheduling, no item is ever misread (`Meets.never_misread`), the exchange can
always be completed (`Meets.completes`), and once the client has ended
everything has been said (`Meets.finished`).
-/

set_option autoImplicit false

namespace OrpsocCores.Network

open Relation

/-! ## Programs -/

/-- The bytes that belong together, and what they are. -/
structure Item (κ β : Type) where
  kind : κ
  bytes : List β

/-- A byte on its way: the kind and the size of the item it was written in, and
its position there. -/
structure Piece (κ β : Type) where
  value : β
  kind : κ
  index : Nat
  size : Nat
  deriving DecidableEq

variable {ω ι κ β α σ : Type}

/-- The bytes of an item as they are put into a pipe. -/
def Item.pieces (item : Item κ β) : List (Piece κ β) :=
  item.bytes.mapIdx fun i b => ⟨b, item.kind, i, item.bytes.length⟩

@[simp] theorem Item.length_pieces (item : Item κ β) : item.pieces.length = item.bytes.length := by
  simp [Item.pieces]

@[simp] theorem Item.map_value_pieces (item : Item κ β) :
    item.pieces.map Piece.value = item.bytes := by
  apply List.ext_getElem?
  intro i
  simp [Item.pieces, List.getElem?_mapIdx, Function.comp_def]

/-- A program that writes to the pipes `ω` and reads from the pipes `ι`. -/
inductive Proc (ω ι κ β α : Type) : Type where
  | ret (a : α)
  | halt
  | write (p : ω) (item : Item κ β) (next : Proc ω ι κ β α)
  | read (p : ι) (kind : κ) (count : Nat) (next : List β → Proc ω ι κ β α)

namespace Proc

/-- One program after the other. -/
def bind {γ : Type} (f : α → Proc ω ι κ β γ) : Proc ω ι κ β α → Proc ω ι κ β γ
  | .ret a => f a
  | .halt => .halt
  | .write p item next => .write p item (next.bind f)
  | .read p kind count next => .read p kind count fun bytes => (next bytes).bind f

instance : Monad (Proc ω ι κ β) where
  pure := .ret
  bind p f := p.bind f

theorem bind_def {γ : Type} (p : Proc ω ι κ β α) (f : α → Proc ω ι κ β γ) :
    p >>= f = p.bind f :=
  rfl

theorem pure_def (a : α) : (pure a : Proc ω ι κ β α) = .ret a :=
  rfl

theorem ret_bind {γ : Type} (a : α) (f : α → Proc ω ι κ β γ) :
    (Proc.ret a : Proc ω ι κ β α).bind f = f a :=
  rfl

theorem bind_ret (p : Proc ω ι κ β α) : p.bind .ret = p := by
  induction p with
  | ret | halt => rfl
  | write p item next ih => rw [bind, ih]
  | read p kind count next ih =>
      rw [bind]
      congr 1
      funext bytes
      exact ih bytes

theorem bind_assoc {γ δ : Type} (p : Proc ω ι κ β α) (f : α → Proc ω ι κ β γ)
    (g : γ → Proc ω ι κ β δ) : (p.bind f).bind g = p.bind fun a => (f a).bind g := by
  induction p with
  | ret | halt => rfl
  | write p item next ih => simp only [bind, ih]
  | read p kind count next ih => simp only [bind, ih]

/-- Every result of a program, whatever it reads, has this property. -/
def Ensures (P : α → Prop) : Proc ω ι κ β α → Prop
  | .ret a => P a
  | .halt => True
  | .write _ _ next => next.Ensures P
  | .read _ _ _ next => ∀ bytes, (next bytes).Ensures P

theorem Ensures.bind {γ : Type} {P : α → Prop} {Q : γ → Prop} {p : Proc ω ι κ β α}
    {f : α → Proc ω ι κ β γ} (first : p.Ensures P) (second : ∀ a, P a → (f a).Ensures Q) :
    (p.bind f).Ensures Q := by
  induction p with
  | ret a => exact second a first
  | halt => exact trivial
  | write p item next ih => exact ih first
  | read p kind count next ih => exact fun bytes => ih bytes (first bytes)

theorem Ensures.mono {P Q : α → Prop} {p : Proc ω ι κ β α} (ensures : p.Ensures P)
    (weaker : ∀ a, P a → Q a) : p.Ensures Q := by
  have same := Ensures.bind (f := .ret) ensures weaker
  rwa [bind_ret] at same

theorem ensures_of_forall {P : α → Prop} (all : ∀ a, P a) (p : Proc ω ι κ β α) :
    p.Ensures P := by
  induction p with
  | ret a => exact all a
  | halt => exact trivial
  | write p item next ih => exact ih
  | read p kind count next ih => exact fun bytes => ih bytes

/-- What holds behind a program whatever it gives. -/
theorem ensures_bind {γ : Type} {Q : γ → Prop} (p : Proc ω ι κ β α) {f : α → Proc ω ι κ β γ}
    (all : ∀ a, (f a).Ensures Q) : (p >>= f).Ensures Q :=
  Ensures.bind (ensures_of_forall (fun _ => trivial) p) fun a (_ : True) => all a

/-- The contents of some pipes. -/
abbrev Contents (ρ κ β : Type) := ρ → List (Piece κ β)

variable [DecidableEq ω] [DecidableEq ι] [DecidableEq κ] [DecidableEq β]

/-- The next action of a program, if it can be taken: what is left of the
program, the pipes it writes to, the pipes it reads from, and whether it has
misread an item. -/
def act (out : Contents ω κ β) (inc : Contents ι κ β) :
    Proc ω ι κ β α → Option (Proc ω ι κ β α × Contents ω κ β × Contents ι κ β × Bool)
  | .ret _ => none
  | .halt => none
  | .write p item next => some (next, Function.update out p (out p ++ item.pieces), inc, false)
  | .read p kind count next =>
      if count ≤ (inc p).length then
        let taken := (inc p).take count
        let values := taken.map Piece.value
        some (next values, out, Function.update inc p ((inc p).drop count),
          decide (taken ≠ Item.pieces ⟨kind, values⟩))
      else none

theorem act_write (out : Contents ω κ β) (inc : Contents ι κ β) (p : ω) (item : Item κ β)
    (next : Proc ω ι κ β α) :
    (Proc.write p item next).act out inc =
      some (next, Function.update out p (out p ++ item.pieces), inc, false) :=
  rfl

/-- A read depends on the pipes it reads from only. -/
theorem act_read_out {p : ι} {kind : κ} {count : Nat} {next : List β → Proc ω ι κ β α}
    {out out' : Contents ω κ β} {inc inc' : Contents ι κ β} {q : Proc ω ι κ β α} {bad : Bool}
    (read : (Proc.read p kind count next).act out inc = some (q, out', inc', bad)) :
    out' = out ∧ ∀ other, (Proc.read p kind count next).act other inc = some (q, other, inc', bad) := by
  simp only [act] at read ⊢
  split at read
  · next there =>
      rw [Option.some.injEq, Prod.mk.injEq, Prod.mk.injEq, Prod.mk.injEq] at read
      obtain ⟨rfl, rfl, rfl, rfl⟩ := read
      exact ⟨rfl, fun _ => if_pos there⟩
  · exact absurd read (by simp)

/-- A write at the end of a pipe does not disturb a read at its front. -/
theorem act_read_after_write {p : ω} {kind : κ} {count : Nat}
    {next : List β → Proc ι ω κ β σ} {out : Contents ι κ β} {inc : Contents ω κ β}
    {q : Proc ι ω κ β σ} {out' : Contents ι κ β} {inc' : Contents ω κ β} {bad : Bool}
    (read : (Proc.read p kind count next).act out inc = some (q, out', inc', bad))
    (p' : ω) (more : List (Piece κ β)) :
    (Proc.read p kind count next).act out (Function.update inc p' (inc p' ++ more)) =
      some (q, out', Function.update inc' p' (inc' p' ++ more), bad) := by
  simp only [act] at read ⊢
  split at read
  · next there =>
      rw [Option.some.injEq, Prod.mk.injEq, Prod.mk.injEq, Prod.mk.injEq] at read
      obtain ⟨rfl, rfl, rfl, rfl⟩ := read
      by_cases same : p' = p
      · subst same
        rw [Function.update_self, if_pos (by rw [List.length_append]; omega),
          List.take_append_of_le_length there, List.drop_append_of_le_length there]
        simp
      · rw [Function.update_of_ne (Ne.symm same), if_pos there, Function.update_of_ne same,
          Function.update_comm same]
  · exact absurd read (by simp)

/-- **The actions of the two sides commute.** -/
theorem act_comm {p p' : Proc ω ι κ β α} {q q' : Proc ι ω κ β σ} {up up₁ up₂ : Contents ω κ β}
    {down down₁ down₂ : Contents ι κ β} {bad₁ bad₂ : Bool}
    (first : p.act up down = some (p', up₁, down₁, bad₁))
    (second : q.act down up = some (q', down₂, up₂, bad₂)) :
    ∃ up₃ down₃, p.act up₂ down₂ = some (p', up₃, down₃, bad₁) ∧
      q.act down₁ up₁ = some (q', down₃, up₃, bad₂) := by
  cases p with
  | ret | halt => exact absurd first (by simp [act])
  | write u item next =>
      rw [act_write, Option.some.injEq, Prod.mk.injEq, Prod.mk.injEq, Prod.mk.injEq] at first
      obtain ⟨rfl, rfl, rfl, rfl⟩ := first
      cases q with
      | ret | halt => exact absurd second (by simp [act])
      | write d item' next' =>
          rw [act_write, Option.some.injEq, Prod.mk.injEq, Prod.mk.injEq, Prod.mk.injEq] at second
          obtain ⟨rfl, rfl, rfl, rfl⟩ := second
          exact ⟨_, _, rfl, rfl⟩
      | read v kind count next' => exact ⟨_, _, rfl, act_read_after_write second u item.pieces⟩
  | read u kind count next =>
      cases q with
      | ret | halt => exact absurd second (by simp [act])
      | write d item' next' =>
          rw [act_write, Option.some.injEq, Prod.mk.injEq, Prod.mk.injEq, Prod.mk.injEq] at second
          obtain ⟨rfl, rfl, rfl, rfl⟩ := second
          exact ⟨_, _, act_read_after_write first d item'.pieces, rfl⟩
      | read v kind' count' next' =>
          obtain ⟨rfl, first'⟩ := act_read_out first
          obtain ⟨rfl, second'⟩ := act_read_out second
          exact ⟨_, _, first' _, second' _⟩

end Proc

/-! ## The network -/

/-- A client, a server and the pipes between them.  A server at `ret` is at the
head of its loop. -/
structure Net (ω ι κ β α σ : Type) where
  client : Proc ω ι κ β α
  server : Proc ι ω κ β σ
  up : Proc.Contents ω κ β
  down : Proc.Contents ι κ β
  misread : Bool

/-- The two programs with nothing in the pipes. -/
def Net.quiet (client : Proc ω ι κ β α) (server : Proc ι ω κ β σ) : Net ω ι κ β α σ :=
  ⟨client, server, fun _ => [], fun _ => [], false⟩

/-- The server's program, with the next round of its loop at the head of it. -/
def serving (loop : σ → Proc ι ω κ β σ) : Proc ι ω κ β σ → Proc ι ω κ β σ
  | .ret s => loop s
  | server => server

/-- The server waits at the head of its loop. -/
def Polls (loop : σ → Proc ι ω κ β σ) : Prop :=
  ∀ s, ∃ p kind count next, loop s = .read p kind (count + 1) next

/-- The last thing the server does in a round is to write something. -/
def Responding : Proc ι ω κ β σ → Prop
  | .ret _ => False
  | .halt => True
  | .write _ item next => (item.bytes ≠ [] ∧ ∃ s, next = .ret s) ∨ Responding next
  | .read _ _ _ next => ∀ bytes, Responding (next bytes)

/-- A program with a response behind it. -/
theorem responding_bind {γ : Type} (p : ι) (item : Item κ β) (something : item.bytes ≠ [])
    (f : γ → σ) (body : Proc ι ω κ β γ) :
    Responding (body.bind fun c => .write p item (.ret (f c))) := by
  induction body with
  | ret c => exact .inl ⟨something, f c, rfl⟩
  | halt => trivial
  | write d item' next ih => exact .inr ih
  | read d kind count next ih => exact ih

/-! ## Handing over item by item -/

/-- The exchange in which every item is handed over at the moment it is written:
the client ends with this result, and the server comes back to the head of its
loop with this state. -/
inductive Meets (loop : σ → Proc ι ω κ β σ) :
    Proc ω ι κ β α → Proc ι ω κ β σ → α → σ → Prop
  | ended (a : α) (s : σ) : Meets loop (.ret a) (.ret s) a s
  | up {p : ω} {item : Item κ β} {next : Proc ω ι κ β α} {server : Proc ι ω κ β σ}
      {next' : List β → Proc ι ω κ β σ} {a : α} {s : σ}
      (reads : serving loop server = .read p item.kind item.bytes.length next')
      (rest : Meets loop next (next' item.bytes) a s) :
      Meets loop (.write p item next) server a s
  | down {p : ι} {item : Item κ β} {next : List β → Proc ω ι κ β α} {server : Proc ι ω κ β σ}
      {next' : Proc ι ω κ β σ} {a : α} {s : σ}
      (writes : serving loop server = .write p item next')
      (rest : Meets loop (next item.bytes) next' a s) :
      Meets loop (.read p item.kind item.bytes.length next) server a s

variable {loop : σ → Proc ι ω κ β σ}

/-- Running this program of the client against this program of the server gives
this result and leaves the server with that program. -/
def Exchange (loop : σ → Proc ι ω κ β σ) (p : Proc ω ι κ β α) (q : Proc ι ω κ β σ) (a : α)
    (q' : Proc ι ω κ β σ) : Prop :=
  ∀ (γ : Type) (next : α → Proc ω ι κ β γ) (c : γ) (s : σ),
    Meets loop (next a) q' c s → Meets loop (p.bind next) q c s

namespace Exchange

variable {q q' q'' : Proc ι ω κ β σ} {a : α}

theorem ret (a : α) (q : Proc ι ω κ β σ) : Exchange loop (.ret a) q a q :=
  fun _ _ _ _ rest => rest

theorem bind {γ : Type} {p : Proc ω ι κ β α} {f : α → Proc ω ι κ β γ} {c : γ}
    (first : Exchange loop p q a q') (second : Exchange loop (f a) q' c q'') :
    Exchange loop (p.bind f) q c q'' := by
  intro δ next d s rest
  rw [Proc.bind_assoc]
  exact first δ _ d s (second δ next d s rest)

/-- The client writes what the server reads. -/
theorem up {p : ω} {kind : κ} {bytes : List β} {count : Nat} {next' : List β → Proc ι ω κ β σ}
    (reads : serving loop q = .read p kind count next') (length : bytes.length = count)
    {next : Proc ω ι κ β α} (rest : Exchange loop next (next' bytes) a q') :
    Exchange loop (.write p ⟨kind, bytes⟩ next) q a q' := by
  subst length
  exact fun γ following c s later =>
    Meets.up reads (rest γ following c s later)

/-- The server writes what the client reads. -/
theorem down {p : ι} {kind : κ} {bytes : List β} {count : Nat}
    {next : List β → Proc ω ι κ β α} {next' : Proc ι ω κ β σ}
    (writes : serving loop q = .write p ⟨kind, bytes⟩ next') (length : bytes.length = count)
    (rest : Exchange loop (next bytes) next' a q') :
    Exchange loop (.read p kind count next) q a q' := by
  subst length
  exact fun γ following c s later =>
    Meets.down writes (rest γ following c s later)

/-- A whole call of the server. -/
theorem meets {p : Proc ω ι κ β α} {s s' : σ} (exchange : Exchange loop p (.ret s) a (.ret s')) :
    Meets loop p (.ret s) a s' := by
  have whole := exchange α .ret a s' (.ended a s')
  rwa [Proc.bind_ret] at whole

end Exchange

/-! ## Steps -/

variable [DecidableEq ω] [DecidableEq ι] [DecidableEq κ] [DecidableEq β]

/-- Either side takes its next action. -/
inductive Step (loop : σ → Proc ι ω κ β σ) : Net ω ι κ β α σ → Net ω ι κ β α σ → Prop
  | client {s : Net ω ι κ β α σ} {p : Proc ω ι κ β α} {up : Proc.Contents ω κ β}
      {down : Proc.Contents ι κ β} {bad : Bool}
      (action : s.client.act s.up s.down = some (p, up, down, bad)) :
      Step loop s ⟨p, s.server, up, down, s.misread || bad⟩
  | server {s : Net ω ι κ β α σ} {q : Proc ι ω κ β σ} {up : Proc.Contents ω κ β}
      {down : Proc.Contents ι κ β} {bad : Bool}
      (action : (serving loop s.server).act s.down s.up = some (q, down, up, bad)) :
      Step loop s ⟨s.client, q, up, down, s.misread || bad⟩

/-- Any number of steps, in any order. -/
abbrev Steps (loop : σ → Proc ι ω κ β σ) : Net ω ι κ β α σ → Net ω ι κ β α σ → Prop :=
  ReflTransGen (Step loop)

/-- Two steps from one state are the same step, or each can follow the other. -/
theorem Step.diamond {s s₁ s₂ : Net ω ι κ β α σ} (first : Step loop s s₁)
    (second : Step loop s s₂) : s₁ = s₂ ∨ ∃ s₃, Step loop s₁ s₃ ∧ Step loop s₂ s₃ := by
  cases first with
  | client action₁ =>
      cases second with
      | client action₂ =>
          have same := Option.some.inj (action₁.symm.trans action₂)
          simp only [Prod.mk.injEq] at same
          obtain ⟨rfl, rfl, rfl, rfl⟩ := same
          exact .inl rfl
      | server action₂ =>
          obtain ⟨up₃, down₃, action₃, action₄⟩ := Proc.act_comm action₁ action₂
          refine .inr ⟨_, .server action₄, ?_⟩
          rw [Bool.or_right_comm]
          exact .client action₃
  | server action₁ =>
      cases second with
      | client action₂ =>
          obtain ⟨up₃, down₃, action₃, action₄⟩ := Proc.act_comm action₂ action₁
          refine .inr ⟨_, .client action₃, ?_⟩
          rw [Bool.or_right_comm]
          exact .server action₄
      | server action₂ =>
          have same := Option.some.inj (action₁.symm.trans action₂)
          simp only [Prod.mk.injEq] at same
          obtain ⟨rfl, rfl, rfl, rfl⟩ := same
          exact .inl rfl

/-- Whatever the order of the steps, a state from which no step leads on is
reached from every state on the way. -/
theorem Steps.reaches_end {s t u : Net ω ι κ β α σ} (toEnd : Steps loop s u)
    (ended : ∀ v, ¬ Step loop u v) (reach : Steps loop s t) : Steps loop t u := by
  obtain ⟨v, fromEnd, fromHere⟩ := church_rosser (fun a b c first second => by
    rcases Step.diamond first second with rfl | ⟨d, left, right⟩
    · exact ⟨b, .refl, .refl⟩
    · exact ⟨d, .single left, .single right⟩) toEnd reach
  rcases fromEnd.cases_head with rfl | ⟨w, step, -⟩
  · exact fromHere
  · exact absurd step (ended w)

/-- What has been misread once stays recorded. -/
theorem Steps.misread {s t : Net ω ι κ β α σ} (steps : Steps loop s t)
    (never : t.misread = false) : s.misread = false := by
  induction steps with
  | refl => exact never
  | tail _ step ih =>
      apply ih
      cases step with
      | client => exact (Bool.or_eq_false_iff.mp never).1
      | server => exact (Bool.or_eq_false_iff.mp never).1

/-- A client that has ended stays where it is. -/
theorem Steps.client_ret {s t : Net ω ι κ β α σ} (steps : Steps loop s t) {a : α}
    (ended : s.client = .ret a) : t.client = .ret a := by
  induction steps with
  | refl => exact ended
  | tail _ step ih =>
      cases step with
      | client action =>
          rw [ih] at action
          exact absurd action (by simp [Proc.act])
      | server => exact ih

/-! ## Any scheduling of an exchange -/

/-- Reading the one item in a pipe. -/
theorem Proc.act_read_pieces (out : Proc.Contents ω κ β) (p : ι) (item : Item κ β)
    (next : List β → Proc ω ι κ β α) :
    (Proc.read p item.kind item.bytes.length next).act out
        (Function.update (fun _ => []) p item.pieces) =
      some (next item.bytes, out, fun _ => [], false) := by
  have whole : item.pieces.take item.bytes.length = item.pieces :=
    List.take_of_length_le (Nat.le_of_eq item.length_pieces)
  have nothing : item.pieces.drop item.bytes.length = [] :=
    List.drop_of_length_le (Nat.le_of_eq item.length_pieces)
  simp only [act, Function.update_self, Item.length_pieces, Nat.le_refl, if_true, whole, nothing,
    Item.map_value_pieces, Function.update_idem]
  rw [Function.update_eq_self p fun _ => ([] : List (Piece κ β))]
  simp

/-- The exchange is one of the schedulings. -/
theorem Meets.steps {p : Proc ω ι κ β α} {q : Proc ι ω κ β σ} {a : α} {s : σ}
    (meets : Meets loop p q a s) : Steps loop (.quiet p q) (.quiet (.ret a) (.ret s)) := by
  induction meets with
  | ended => exact .refl
  | @up p item next server next' a s reads rest ih =>
      let written : Net ω ι κ β α σ :=
        ⟨next, server, Function.update (fun _ => []) p item.pieces, fun _ => [], false⟩
      have writes : Step loop (.quiet (.write p item next) server) written :=
        .client (Proc.act_write _ _ _ _ _)
      have taken : Step loop written (.quiet next (next' item.bytes)) := by
        refine .server ?_
        rw [reads]
        exact Proc.act_read_pieces ..
      exact .head writes (.head taken ih)
  | @down p item next server next' a s writes rest ih =>
      let written : Net ω ι κ β α σ :=
        ⟨.read p item.kind item.bytes.length next, next', fun _ => [],
          Function.update (fun _ => []) p item.pieces, false⟩
      have put : Step loop (.quiet (.read p item.kind item.bytes.length next) server) written := by
        refine .server ?_
        simp only [Net.quiet, writes]
        exact Proc.act_write _ _ _ _ _
      have reads : Step loop written (.quiet (next item.bytes) next') :=
        .client (Proc.act_read_pieces ..)
      exact .head put (.head reads ih)

/-- Where both sides have come to an end, no step leads on. -/
theorem Polls.ended (polls : Polls loop) (a : α) (s : σ) (v : Net ω ι κ β α σ) :
    ¬ Step loop (.quiet (.ret a) (.ret s)) v := by
  intro step
  cases step with
  | client action => exact absurd action (by simp [Net.quiet, Proc.act])
  | server action =>
      obtain ⟨p, kind, count, next, head⟩ := polls s
      exact absurd action (by simp [Net.quiet, serving, head, Proc.act])

/-- From every state on the way the exchange can be completed. -/
theorem Meets.completes {p : Proc ω ι κ β α} {q : Proc ι ω κ β σ} {a : α} {s : σ}
    (meets : Meets loop p q a s) (polls : Polls loop) {t : Net ω ι κ β α σ}
    (reach : Steps loop (.quiet p q) t) : Steps loop t (.quiet (.ret a) (.ret s)) :=
  meets.steps.reaches_end (polls.ended a s) reach

/-- No item is ever misread. -/
theorem Meets.never_misread {p : Proc ω ι κ β α} {q : Proc ι ω κ β σ} {a : α} {s : σ}
    (meets : Meets loop p q a s) (polls : Polls loop) {t : Net ω ι κ β α σ}
    (reach : Steps loop (.quiet p q) t) : t.misread = false :=
  (meets.completes polls reach).misread rfl

/-- In a round the server is at the head of its loop or has a response to write. -/
theorem Steps.responding (responds : ∀ s, Responding (loop s)) {t u : Net ω ι κ β α σ}
    (steps : Steps loop t u) (start : Responding (serving loop t.server)) :
    Responding (serving loop u.server) := by
  induction steps with
  | refl => exact start
  | @tail b c _ step ih =>
      cases step with
      | client => exact ih
      | @server q up down bad action =>
          cases q with
          | ret s => exact responds s
          | halt => trivial
          | write p item next | read p kind count next =>
              cases program : serving loop b.server with
              | ret | halt =>
                  rw [program] at action
                  exact absurd action (by simp [Proc.act])
              | write p' item' next' =>
                  rw [program] at action ih
                  rw [Proc.act_write] at action
                  obtain rfl : next' = _ := congrArg Prod.fst (Option.some.inj action)
                  rcases ih with ⟨-, s, ended⟩ | later
                  · exact absurd ended (by simp)
                  · exact later
              | read p' kind' count' next' =>
                  rw [program] at action ih
                  simp only [Proc.act] at action
                  split at action
                  · have same := congrArg Prod.fst (Option.some.inj action)
                    have later := ih (((b.up p').take count').map Piece.value)
                    simp only at same
                    rw [same] at later
                    exact later
                  · exact absurd action (by simp)

/-- Once the client has ended, everything has been said: the server is back at
the head of its loop, and the pipes are empty. -/
theorem Meets.finished {p : Proc ω ι κ β α} {s₀ : σ} {a : α} {s : σ}
    (meets : Meets loop p (.ret s₀) a s) (polls : Polls loop)
    (responds : ∀ s, Responding (loop s)) {t : Net ω ι κ β α σ}
    (reach : Steps loop (.quiet p (.ret s₀)) t) {b : α} (ended : t.client = .ret b) :
    t = .quiet (.ret a) (.ret s) := by
  rcases (meets.completes polls reach).cases_tail with same | ⟨u, before, last⟩
  · exact same.symm
  · -- the last step would be the server's, and leave its response in a pipe
    exfalso
    have responding := Steps.responding responds (reach.trans before) (responds s₀)
    have ended' := Steps.client_ret before ended
    generalize final : Net.quiet (.ret a) (.ret s) = v at last
    cases last with
    | client action =>
        rw [ended'] at action
        exact absurd action (by simp [Proc.act])
    | server action =>
        rw [Net.quiet, Net.mk.injEq] at final
        obtain ⟨-, rfl, rfl, rfl, -⟩ := final
        cases program : serving loop u.server with
        | ret | halt =>
            rw [program] at action
            exact absurd action (by simp [Proc.act])
        | write d item next =>
            rw [program] at action responding
            rw [Proc.act_write, Option.some.injEq, Prod.mk.injEq, Prod.mk.injEq] at action
            obtain ⟨rfl, pipes, -⟩ := action
            rcases responding with ⟨something, -⟩ | never
            · have empty := congrFun pipes d
              rw [Function.update_self, List.append_eq_nil_iff] at empty
              have none_written := congrArg List.length empty.2
              rw [Item.length_pieces, List.length_nil, List.length_eq_zero_iff] at none_written
              exact something none_written
            · exact never
        | read d kind count next =>
            rw [program] at action responding
            simp only [Proc.act] at action
            split at action
            · have same := congrArg Prod.fst (Option.some.inj action)
              have never := responding (((u.up d).take count).map Piece.value)
              simp only at same
              rw [same] at never
              exact never
            · exact absurd action (by simp)

/-! ## Calls in sequence -/

/-- A client that makes its calls one after the other: the calls made so far, the
last of them possibly still on its way, and the ones it has yet to make. -/
structure Session (γ ω ι κ β α σ : Type) where
  made : List γ
  todo : List γ
  net : Net ω ι κ β α σ

namespace Session

variable {γ : Type}

/-- Before the first call. -/
def start (first : α × σ) (calls : List γ) : Session γ ω ι κ β α σ :=
  ⟨[], calls, .quiet (.ret first.1) (.ret first.2)⟩

/-- Either side takes its next action, or the client goes on to its next call; its
program may depend on what the last call has left. -/
inductive Step (loop : σ → Proc ι ω κ β σ) (program : α → γ → Proc ω ι κ β α) :
    Session γ ω ι κ β α σ → Session γ ω ι κ β α σ → Prop
  | inside {s : Session γ ω ι κ β α σ} {net : Net ω ι κ β α σ}
      (step : Network.Step loop s.net net) : Step loop program s ⟨s.made, s.todo, net⟩
  | next {s : Session γ ω ι κ β α σ} {a : α} {call : γ} {rest : List γ}
      (ended : s.net.client = .ret a) (left : s.todo = call :: rest) :
      Step loop program s
        ⟨s.made ++ [call], rest, { s.net with client := program a call }⟩

/-- Any number of steps, in any order. -/
abbrev Steps (loop : σ → Proc ι ω κ β σ) (program : α → γ → Proc ω ι κ β α) :
    Session γ ω ι κ β α σ → Session γ ω ι κ β α σ → Prop :=
  ReflTransGen (Step loop program)

variable {program : α → γ → Proc ω ι κ β α} {direct : γ → α × σ → α × σ} {calls : List γ}

/-- Executing the calls directly, one after the other. -/
def outcome (direct : γ → α × σ → α × σ) (first : α × σ) (calls : List γ) : α × σ :=
  calls.foldl (fun x call => direct call x) first

theorem outcome_append (direct : γ → α × σ → α × σ) (first : α × σ) (calls : List γ) (call : γ) :
    outcome direct first (calls ++ [call]) = direct call (outcome direct first calls) := by
  simp only [outcome, List.foldl_append, List.foldl_cons, List.foldl_nil]

/-- The network of a session is on its way through the last of the calls made. -/
def OnItsWay (loop : σ → Proc ι ω κ β σ) (direct : γ → α × σ → α × σ) (first : α × σ)
    (t : Session γ ω ι κ β α σ) : Prop :=
  ∃ p s, Meets loop p (.ret s) (outcome direct first t.made).1 (outcome direct first t.made).2 ∧
    Network.Steps loop (.quiet p (.ret s)) t.net

theorem inside_steps {t : Session γ ω ι κ β α σ} {net : Net ω ι κ β α σ}
    (steps : Network.Steps loop t.net net) : Steps loop program t ⟨t.made, t.todo, net⟩ := by
  induction steps with
  | refl => exact .refl
  | tail _ step ih => exact .tail ih (.inside step)

section

variable (polls : Polls loop) (responds : ∀ s, Responding (loop s))
  (meets : ∀ c ∈ calls, ∀ x, Meets loop (program x.1 c) (.ret x.2) (direct c x).1 (direct c x).2)
  {first : α × σ}

include polls responds meets

/-- Along every run the calls are made one by one, each from where the direct
execution of the ones before it leads. -/
theorem onItsWay {t : Session γ ω ι κ β α σ}
    (reach : Steps loop program (start first calls) t) :
    t.made ++ t.todo = calls ∧ OnItsWay loop direct first t := by
  induction reach with
  | refl => exact ⟨rfl, .ret first.1, first.2, .ended _ _, .refl⟩
  | @tail t u _ step ih =>
      obtain ⟨all, p, s, meet, way⟩ := ih
      cases step with
      | inside step => exact ⟨all, p, s, meet, way.tail step⟩
      | @next a call rest ended left =>
          have settled := meet.finished polls responds way ended
          rw [settled] at ended
          obtain rfl := Proc.ret.inj ended
          have here : call ∈ calls := by
            rw [← all, left]
            exact List.mem_append_right _ List.mem_cons_self
          refine ⟨by rw [← all, left, List.append_assoc, List.singleton_append],
            program (outcome direct first t.made).1 call, (outcome direct first t.made).2, ?_, ?_⟩
          · rw [outcome_append]
            exact meets call here _
          · rw [settled]
            exact .refl

/-- Once a call has returned, its result is the one of the direct execution, the
simulator is back at the head of its loop, and the pipes are empty. -/
theorem returned {t : Session γ ω ι κ β α σ}
    (reach : Steps loop program (start first calls) t) {a : α}
    (ended : t.net.client = .ret a) :
    t.net = .quiet (.ret (outcome direct first t.made).1)
      (.ret (outcome direct first t.made).2) := by
  obtain ⟨-, p, s, meet, way⟩ := onItsWay polls responds meets reach
  exact meet.finished polls responds way ended

theorem never_misread {t : Session γ ω ι κ β α σ}
    (reach : Steps loop program (start first calls) t) : t.net.misread = false := by
  obtain ⟨-, p, s, meet, way⟩ := onItsWay polls responds meets reach
  exact meet.never_misread polls way

/-- From every state of every run the calls that are left can be made. -/
theorem completes {t : Session γ ω ι κ β α σ}
    (reach : Steps loop program (start first calls) t) :
    Steps loop program t ⟨calls, [], .quiet (.ret (outcome direct first calls).1)
      (.ret (outcome direct first calls).2)⟩ := by
  -- by induction on the calls that are left
  generalize left : t.todo = rest
  induction rest generalizing t with
  | nil =>
      obtain ⟨all, p, s, meet, way⟩ := onItsWay polls responds meets reach
      rw [left, List.append_nil] at all
      rw [← all, ← left]
      exact inside_steps (meet.completes polls way)
  | cons call rest ih =>
      obtain ⟨all, p, s, meet, way⟩ := onItsWay polls responds meets reach
      have returns : Steps loop program t ⟨t.made, t.todo, _⟩ :=
        inside_steps (meet.completes polls way)
      have further := returns.tail (.next rfl left)
      exact further.trans (ih (reach.trans further) rfl)

end

end Session

end OrpsocCores.Network
