import VirtualHsm.Core.Utils

/-!
# Keyed hashes

HMAC-SHA256 comes from a library. What the module relies on is the length of its output.
-/

namespace VirtualHsm

/-- A library's HMAC-SHA256. -/
structure Hmac where
  /-- Key first. -/
  sha256 : Bytes → Bytes → Bytes
  length_sha256 : ∀ key data, (sha256 key data).length = 32

namespace Hmac

/-- The hash as 64 hexadecimal digits. -/
def hex (mac : Hmac) (key data : Bytes) : String := hexText (mac.sha256 key data)

theorem length_hex (mac : Hmac) (key data : Bytes) : (mac.hex key data).length = 64 := by
  rw [hex, length_hexText, mac.length_sha256]

theorem hex_ne_empty (mac : Hmac) (key data : Bytes) : mac.hex key data ≠ "" := by
  intro h
  have hlen := mac.length_hex key data
  rw [h] at hlen
  cases hlen

theorem notMem_hex (mac : Hmac) (key data : Bytes) : '\x00' ∉ (mac.hex key data).toList :=
  notMem_hexText _

/-- A constant instead of a hash, for runs on fixed inputs. -/
def toy : Hmac := ⟨fun _ _ => List.replicate 32 0, fun _ _ => List.length_replicate⟩

end Hmac

end VirtualHsm
