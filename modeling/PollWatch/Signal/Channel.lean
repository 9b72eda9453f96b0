/-!
# A channel that keeps the latest value

A sender and any number of receivers share one value. The value has a version, which moves on with
every value that is sent, and each receiver knows up to which version it has seen. A receiver that
asks for a change is told whether there is a version that it has not seen; if there is none and the
sender is gone, it is told so.

The stop signal does not care how a channel is made. What it relies on is a `Channel`: the
operations, and what they promise of value, version and receivers. `Channel.versioned` is one that
counts the values sent.
-/

namespace PollWatch

/-- What a receiver is told that asks for a change. -/
inductive News where
  /-- There was a value that it had not seen. -/
  | changed
  /-- It has seen the latest value. -/
  | quiet
  /-- It has seen the latest value, and the sender is gone. -/
  | closed
deriving DecidableEq

/-- A channel of values of `α`, with what is shared in `σ` and what each receiver keeps in `ρ`. -/
structure Channel (α σ ρ : Type) where
  /-- A channel that holds this value, with its first receiver. -/
  create : α → σ × ρ
  /-- Put a value in place of the one that is held. -/
  send : α → σ → σ
  /-- Let the sender go. -/
  close : σ → σ
  /-- Another receiver, made from this one. -/
  clone : ρ → ρ
  /-- Look at the latest value. -/
  borrow : σ → ρ → α
  /-- Look at the latest value and mark it as seen. -/
  borrowAndUpdate : σ → ρ → α × ρ
  /-- Ask once for a change, and mark the latest value as seen. -/
  changed : σ → ρ → News × ρ
  /-- The latest value. -/
  value : σ → α
  /-- The version of the latest value. -/
  version : σ → Nat
  /-- The sender is gone. -/
  isClosed : σ → Bool
  /-- The version up to which a receiver has seen. -/
  seen : ρ → Nat
  value_create : ∀ a, value (create a).1 = a
  isClosed_create : ∀ a, isClosed (create a).1 = false
  /-- The first receiver has seen the value that the channel starts with. -/
  seen_create : ∀ a, seen (create a).2 = version (create a).1
  value_send : ∀ a s, value (send a s) = a
  /-- A value that is sent is new, also if it equals the one before. -/
  version_lt_send : ∀ a s, version s < version (send a s)
  isClosed_send : ∀ a s, isClosed (send a s) = isClosed s
  value_close : ∀ s, value (close s) = value s
  version_close : ∀ s, version (close s) = version s
  isClosed_close : ∀ s, isClosed (close s) = true
  /-- Another receiver has seen what the one has seen that it was made from. -/
  seen_clone : ∀ r, seen (clone r) = seen r
  borrow_eq : ∀ s r, borrow s r = value s
  borrowAndUpdate_fst : ∀ s r, (borrowAndUpdate s r).1 = value s
  seen_borrowAndUpdate : ∀ s r, seen (borrowAndUpdate s r).2 = version s
  /-- A value that was not seen counts for more than that the sender is gone. -/
  changed_fst : ∀ s r, (changed s r).1 =
    if seen r ≠ version s then .changed else if isClosed s then .closed else .quiet
  seen_changed : ∀ s r, seen (changed s r).2 = version s

/-- What a channel shares that counts the values sent. -/
structure Latest (α : Type) where
  value : α
  version : Nat := 0
  isClosed : Bool := false

/-- The channel that counts the values sent. A receiver keeps the count up to which it has seen. -/
def Channel.versioned (α : Type) : Channel α (Latest α) Nat where
  create a := ({ value := a }, 0)
  send a s := { s with value := a, version := s.version + 1 }
  close s := { s with isClosed := true }
  clone r := r
  borrow s _ := s.value
  borrowAndUpdate s _ := (s.value, s.version)
  changed s r :=
    (if r ≠ s.version then .changed else if s.isClosed then .closed else .quiet, s.version)
  value := Latest.value
  version := Latest.version
  isClosed := Latest.isClosed
  seen r := r
  value_create _ := rfl
  isClosed_create _ := rfl
  seen_create _ := rfl
  value_send _ _ := rfl
  version_lt_send _ s := Nat.lt_succ_self s.version
  isClosed_send _ _ := rfl
  value_close _ := rfl
  version_close _ := rfl
  isClosed_close _ := rfl
  seen_clone _ := rfl
  borrow_eq _ _ := rfl
  borrowAndUpdate_fst _ _ := rfl
  seen_borrowAndUpdate _ _ := rfl
  changed_fst _ _ := rfl
  seen_changed _ _ := rfl

end PollWatch
