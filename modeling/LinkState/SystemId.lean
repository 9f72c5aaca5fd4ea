import LinkState.Text.Hex

/-!
# System IDs

A router is named by six octets, written as three groups of four hexadecimal digits
(`1921.6800.1001`). Reading accepts digits of either case and nothing else; writing uses lower case.
System IDs are ordered as octet strings, and `SystemId.key` numbers them in that order.
-/

namespace LinkState

/-- The identifier of a router: six octets. -/
structure SystemId where
  o0 : UInt8
  o1 : UInt8
  o2 : UInt8
  o3 : UInt8
  o4 : UInt8
  o5 : UInt8
deriving DecidableEq, Repr

/-- A text that is no system ID. -/
structure SystemIdError where
  text : String
deriving DecidableEq, Repr

/-- The wording of the error. -/
def SystemIdError.message (e : SystemIdError) : String := "invalid system ID: " ++ e.text

namespace SystemId

/-- The system ID whose octets are all zero. -/
def zero : SystemId := ⟨0, 0, 0, 0, 0, 0⟩

instance : Inhabited SystemId := ⟨zero⟩

/-- The six octets, in order. -/
def toOctets (s : SystemId) : Octets := [s.o0, s.o1, s.o2, s.o3, s.o4, s.o5]

/-- The system ID of six octets. -/
def ofOctets? : Octets → Option SystemId
  | [a, b, c, d, e, f] => some ⟨a, b, c, d, e, f⟩
  | _ => none

/-- The octets read as one 48-bit number. -/
def key (s : SystemId) : UInt64 := UInt64.ofNat (Octets.toNat s.toOctets)

/-- System IDs are ordered as octet strings, the first octet counting most. -/
instance : LT SystemId := ⟨fun a b => a.toOctets < b.toOctets⟩

instance (a b : SystemId) : Decidable (a < b) :=
  inferInstanceAs (Decidable (a.toOctets < b.toOctets))

/-- Three groups of four digits, separated by dots. -/
def toChars (s : SystemId) : List Char :=
  Hex.ofOctet s.o0 ++ Hex.ofOctet s.o1 ++ '.' ::
    (Hex.ofOctet s.o2 ++ Hex.ofOctet s.o3 ++ '.' :: (Hex.ofOctet s.o4 ++ Hex.ofOctet s.o5))

/-- The text of a system ID. -/
def text (s : SystemId) : String := String.ofList s.toChars

/-- The word that a group of four digits writes. The size of a group is its size in UTF-8. Each of
its characters has to be a digit, since a number could also have a sign. -/
def ofGroup? (group : List Char) : Option UInt16 :=
  if (String.ofList group).utf8ByteSize = 4 ∧ group.all (fun c => (Hex.value? c).isSome) then
    (Hex.unsigned? UInt16.size group).map UInt16.ofNat
  else none

/-- Reads exactly three groups, separated by dots. -/
def ofChars? (chars : List Char) : Option SystemId :=
  match chars.splitOn '.' with
  | [a, b, c] => do
    ofOctets? (Octets.ofWord16 (← ofGroup? a) ++ Octets.ofWord16 (← ofGroup? b) ++
      Octets.ofWord16 (← ofGroup? c))
  | _ => none

/-- Reads a system ID; a text that is none is given back in the error. -/
def parse (text : String) : Except SystemIdError SystemId :=
  match ofChars? text.toList with
  | some s => .ok s
  | none => .error ⟨text⟩

/-- The number of a system ID fits six octets. -/
theorem toNat_toOctets_lt (s : SystemId) : Octets.toNat s.toOctets < Octets.count 6 := by
  rw [show Octets.count 6 = 0x1000000000000 from rfl]
  have h0 := s.o0.toNat_lt
  have h1 := s.o1.toNat_lt
  have h2 := s.o2.toNat_lt
  have h3 := s.o3.toNat_lt
  have h4 := s.o4.toNat_lt
  have h5 := s.o5.toNat_lt
  simp only [Octets.toNat, toOctets, List.foldl_cons, List.foldl_nil]
  omega

/-- A system ID is determined by the number its octets write. -/
theorem eq_of_toNat_toOctets {a b : SystemId}
    (h : Octets.toNat a.toOctets = Octets.toNat b.toOctets) : a = b := by
  have ha := Octets.ofNat_toNat a.toOctets
  have hb := Octets.ofNat_toNat b.toOctets
  rw [h] at ha
  have hlen : a.toOctets.length = b.toOctets.length := rfl
  rw [hlen, hb] at ha
  cases a
  cases b
  simp only [toOctets, List.cons.injEq, and_true] at ha
  simp [ha]

end SystemId

end LinkState
