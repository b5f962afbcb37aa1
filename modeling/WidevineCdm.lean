import WidevineCdm.Lib.Bytes
import WidevineCdm.Lib.Effect
import WidevineCdm.Lib.Run
import WidevineCdm.Lib.Simulation
import WidevineCdm.Lib.Ledger
import WidevineCdm.Lib.FiniteMap
import WidevineCdm.Lib.Format
import WidevineCdm.Lib.BlockChaining
import WidevineCdm.Lib.Bits
import WidevineCdm.Lib.Base64
import WidevineCdm.Lib.WireFormat
import WidevineCdm.Lib.Text
import WidevineCdm.Model.Types
import WidevineCdm.Model.Base64
import WidevineCdm.Model.Pssh
import WidevineCdm.Model.Device
import WidevineCdm.Model.Platform
import WidevineCdm.Model.Contracts
import WidevineCdm.Model.Crypto
import WidevineCdm.Model.Cdm
import WidevineCdm.Model.Key
import WidevineCdm.Model.Client
import WidevineCdm.Format.Integers
import WidevineCdm.Format.Base64
import WidevineCdm.Format.PsshBox
import WidevineCdm.Format.PsshParser
import WidevineCdm.Format.PsshText
import WidevineCdm.Format.PsshWidths
import WidevineCdm.Format.WvdFile
import WidevineCdm.Session.Operations
import WidevineCdm.Session.Exceptions
import WidevineCdm.Session.Transition
import WidevineCdm.Session.Lifecycle
import WidevineCdm.Reference.Messages
import WidevineCdm.Reference.Platform
import WidevineCdm.Session.Influence
import WidevineCdm.Session.Isolation
import WidevineCdm.Session.Challenge
import WidevineCdm.Session.RequestId
import WidevineCdm.Session.PendingLedger
import WidevineCdm.License.Derivation
import WidevineCdm.License.Extraction
import WidevineCdm.License.Primitives
import WidevineCdm.License.Padding
import WidevineCdm.License.Atomicity
import WidevineCdm.License.Delivery
import WidevineCdm.License.PartialBlocks
import WidevineCdm.License.Authenticity
import WidevineCdm.License.KeySizes
import WidevineCdm.License.Order
import WidevineCdm.License.Exchange
import WidevineCdm.Spec.Vault
import WidevineCdm.System.Noninterference
import WidevineCdm.System.Refinement
import WidevineCdm.System.KeyLog
import WidevineCdm.System.Provenance
import WidevineCdm.System.Conservation
import WidevineCdm.System.Failures
import WidevineCdm.System.Listing
import WidevineCdm.System.Client
import WidevineCdm.System.HonestServer
import WidevineCdm.System.BasicUsage
