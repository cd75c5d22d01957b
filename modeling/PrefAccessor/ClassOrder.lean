/-!
# Merging orders

Several orders of the same things become one that keeps to each of them: the next thing is always the
first one at the front of an order that no order holds behind its front. There may be none, and then
the orders cannot be merged.
-/

namespace PrefAccessor

set_option autoImplicit false

variable {α : Type} (number : α → Nat)

/-- Whether no order holds a thing of this number behind its front. -/
def isFree (orders : List (List α)) (a : α) : Bool :=
  orders.all fun order => order.tail.all fun b => number b != number a

/-- What is left of an order once a thing is taken from its front. -/
def behind (a : α) : List α → List α
  | [] => []
  | b :: rest => if number b = number a then rest else b :: rest

/-- The merged order of at most `count` things. -/
def mergeOrders : Nat → List (List α) → Option (List α)
  | 0, orders => if orders.all List.isEmpty then some [] else none
  | count + 1, orders =>
    if orders.all List.isEmpty then some []
    else
      match (orders.filterMap List.head?).find? (isFree number orders) with
      | some a => (mergeOrders count (orders.map (behind number a))).map (a :: ·)
      | none => none

end PrefAccessor
