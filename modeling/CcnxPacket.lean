import CcnxPacket.Config.Document
import CcnxPacket.Config.Environment
import CcnxPacket.Metrics
import CcnxPacket.Proofs.Grammar.Recognition
import CcnxPacket.Proofs.Signing
import CcnxPacket.Tid.Text
import CcnxPacket.Proofs.Hash.Crc32c
import CcnxPacket.Proofs.Verification.Corruption
import CcnxPacket.Proofs.Truncation
import CcnxPacket.Proofs.Writing.Atomicity
import CcnxPacket.Proofs.Arrangement
import CcnxPacket.Proofs.NormalForm.Message
import CcnxPacket.Proofs.NormalForm.Framing
import CcnxPacket.Proofs.NormalForm.Packet
import CcnxPacket.Proofs.Registry.History
import CcnxPacket.Proofs.Registry.Reliance
import CcnxPacket.Proofs.Writing.Signed
import CcnxPacket.Proofs.Fault.Place
import CcnxPacket.Proofs.Fault.Packet
import CcnxPacket.Proofs.FieldOrder
import CcnxPacket.Proofs.FieldContract
import CcnxPacket.Proofs.Position
import CcnxPacket.Proofs.Limit
import CcnxPacket.Proofs.Machine.Codec
import CcnxPacket.Proofs.Tid.Text
import CcnxPacket.Proofs.Name.Text
import CcnxPacket.Proofs.Verification.KeyHistory
import CcnxPacket.Proofs.Name.Unambiguous
import CcnxPacket.Proofs.Cursor.History
import CcnxPacket.Proofs.Writing.Elements
import CcnxPacket.Proofs.Order.Subtree
import CcnxPacket.Proofs.Counting
import CcnxPacket.Proofs.Config.PartialDocument
import CcnxPacket.Proofs.Config.LogFile
