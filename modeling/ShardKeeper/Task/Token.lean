/-!
# Cancellation

## Main definitions

* `Token` — the token of a task, by way of the token it was derived from
* `Cancellation` — the tokens that were cancelled
* `Cancellation.reaches` — whether a token or one it was derived from was cancelled

## Design notes

A token is the list of numbers that leads to it, its own in front. Cancelling one reaches everything
derived from it, before or after, because the list of a derived token ends in its own.
-/

namespace ShardKeeper

/-- A token that can be cancelled: its number, then the number of the token it was derived from, and
so on. -/
structure Token where
  path : List Nat
deriving DecidableEq, Inhabited

namespace Token

/-- A token that is not derived from another one. -/
def top (number : Nat) : Token := ⟨[number]⟩

/-- A token derived from `t`. -/
def derive (t : Token) (number : Nat) : Token := ⟨number :: t.path⟩

/-- Whether a token is `origin` or was derived from it, directly or not. -/
def isWithin (t origin : Token) : Bool := origin.path.isSuffixOf t.path

theorem isWithin_self (t : Token) : t.isWithin t = true := by
  simp [Token.isWithin]

theorem isWithin_derive (t : Token) (n : Nat) : (t.derive n).isWithin t = true := by
  simp [Token.isWithin, Token.derive]

theorem isWithin_trans {a b c : Token} (h₁ : a.isWithin b = true) (h₂ : b.isWithin c = true) :
    a.isWithin c = true := by
  simp only [Token.isWithin, List.isSuffixOf_iff_suffix] at *
  exact h₂.trans h₁

end Token

/-- The tokens that were cancelled. -/
structure Cancellation where
  cancelled : List Token
deriving DecidableEq

namespace Cancellation

/-- Nothing was cancelled. -/
def none : Cancellation := ⟨[]⟩

instance : Inhabited Cancellation := ⟨none⟩

/-- Cancels a token and all that were or will be derived from it. -/
def cancel (c : Cancellation) (t : Token) : Cancellation := ⟨t :: c.cancelled⟩

/-- Whether a token was cancelled. -/
def reaches (c : Cancellation) (t : Token) : Bool := c.cancelled.any t.isWithin

theorem reaches_cancel (c : Cancellation) (t u : Token) :
    (c.cancel t).reaches u = (u.isWithin t || c.reaches u) := rfl

/-- Whoever reaches a token reaches everything derived from it. -/
theorem reaches_of_isWithin {c : Cancellation} {t u : Token} (h : u.isWithin t = true)
    (ht : c.reaches t = true) : c.reaches u = true := by
  obtain ⟨o, ho, hto⟩ := List.any_eq_true.1 ht
  exact List.any_eq_true.2 ⟨o, ho, Token.isWithin_trans h hto⟩

end Cancellation

end ShardKeeper
