import LinkState.Document.Reading
import LinkState.Ip.Endpoint
import LinkState.LspId
import LinkState.Timestamp

/-!
# Forms of words, identifiers and addresses

Numbers are written as integers, identifiers and addresses as their texts, octet strings as lists of
numbers.
-/

namespace LinkState

instance : Form Bool where
  write := .bool
  read
    | .bool value => .ok value
    | _ => .error .invalidType

instance : Form String := ⟨.text, Reader.text⟩

instance : Form UInt8 where
  write n := .integer n.toNat
  read document := .ofNat <$> Reader.natBelow UInt8.size document

instance : Form UInt16 where
  write n := .integer n.toNat
  read document := .ofNat <$> Reader.natBelow UInt16.size document

instance : Form UInt32 where
  write n := .integer n.toNat
  read document := .ofNat <$> Reader.natBelow UInt32.size document

instance : Form UInt64 where
  write n := .integer n.toNat
  read document := .ofNat <$> Reader.natBelow UInt64.size document

instance [Form α] : Form (List α) := ⟨fun items => .list (items.map write), Reader.list read⟩

instance [Form α] : Form (Option α) := ⟨fun value => value.elim .null write, Reader.optional read⟩

/-- Reads an octet string from a list of numbers, or from a text as its UTF-8 octets. -/
def Octets.readForm : Reader Octets
  | .text value => .ok value.toUTF8.toList
  | document => Reader.list read document

instance : Form SystemId where
  write systemId := .text systemId.text
  read
    | .text value => (SystemId.parse value).mapError .systemId
    | _ => .error .invalidType

instance : Form LspId where
  write id := .ofFields [
    ("system_id", write id.systemId),
    ("pseudonode", write id.pseudonode),
    ("fragment", write id.fragment)]
  read := Fields.lenient <| LspId.mk <$> .field "system_id" read
    <*> .field "pseudonode" read <*> .field "fragment" read

instance : Form Ipv4.Address := ⟨fun address => .text address.text, .formatted Ipv4.Address.parse?⟩

instance : Form Ipv4.Network := ⟨fun network => .text network.text, .formatted Ipv4.Network.parse?⟩

instance : Form Endpoint := ⟨fun endpoint => .text endpoint.text, .formatted Endpoint.parse?⟩

instance : Form Timestamp := ⟨fun time => .text time.text, .formatted Timestamp.parse?⟩

end LinkState
