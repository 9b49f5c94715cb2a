/-! Strict total orders on keys. Everything that is listed in key order (records of a registry,
blocks of a graph, members of a document) uses the order of its key type. -/
namespace Vdag

class KeyOrder (κ : Type) where
  Before : κ → κ → Prop
  decide (a b : κ) : Decidable (Before a b)
  irrefl (a : κ) : ¬ Before a a
  trans {a b c : κ} : Before a b → Before b c → Before a c
  connected {a b : κ} : ¬ Before a b → ¬ Before b a → a = b

namespace KeyOrder

instance {κ : Type} [KeyOrder κ] (a b : κ) : Decidable (Before a b) := decide a b

variable {κ : Type} [KeyOrder κ]

theorem asymm {a b : κ} (h : Before a b) : ¬ Before b a := fun g => irrefl a (trans h g)

theorem neOfBefore {a b : κ} (h : Before a b) : a ≠ b := fun e => irrefl b (e ▸ h)

abbrev ofView {β : Type} (view : β → κ) (injective : ∀ {a b}, view a = view b → a = b) : KeyOrder β where
  Before a b := Before (view a) (view b)
  decide a b := KeyOrder.decide (view a) (view b)
  irrefl a := irrefl (view a)
  trans h g := trans h g
  connected h g := injective (connected h g)

end KeyOrder

/-- Text is ordered character by character, which is also the order of its UTF-8 bytes. -/
instance : KeyOrder String where
  Before a b := a < b
  decide _ _ := inferInstance
  irrefl := String.lt_irrefl
  trans := String.lt_trans
  connected h g := String.le_antisymm (String.not_lt.mp g) (String.not_lt.mp h)

end Vdag
