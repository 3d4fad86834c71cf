import StrongSwan.Android.DnsProxy
import StrongSwan.Asn1.AlgorithmIdentifier
import StrongSwan.Asn1.Asn1
import StrongSwan.Asn1.Asn1Parser
import StrongSwan.Asn1.Asn1Parser.Exact
import StrongSwan.Asn1.Asn1Parser.Loops
import StrongSwan.Asn1.Lengths
import StrongSwan.Asn1.Oid
import StrongSwan.Asn1.Oid.Forest
import StrongSwan.Asn1.Oid.Text
import StrongSwan.Asn1.Oid.Text.RoundTrip
import StrongSwan.Asn1.Tables
import StrongSwan.Asn1.Time
import StrongSwan.Asn1.Time.Inverse
import StrongSwan.Attributes.MemPool
import StrongSwan.Attributes.MemPool.Create
import StrongSwan.Attributes.MemPool.Lease
import StrongSwan.Attributes.MemPool.Release
import StrongSwan.Basic
import StrongSwan.Bio.BioReader
import StrongSwan.Bio.BioReader.Window
import StrongSwan.Bio.BioWriter
import StrongSwan.Bio.BioWriter.Buffer
import StrongSwan.Bio.RoundTrip
import StrongSwan.Collections.Array
import StrongSwan.Collections.Hashtable
import StrongSwan.Collections.Hashtable.Enumerator
import StrongSwan.Collections.Hashtable.Loose
import StrongSwan.Collections.Hashtable.Private
import StrongSwan.Collections.Hashtable.Refinement
import StrongSwan.Collections.LinkedList
import StrongSwan.Collections.PtrArray
import StrongSwan.Collections.RawArray
import StrongSwan.Collections.RawArray.Runs
import StrongSwan.Config.BackendManager
import StrongSwan.Config.ChildCfg
import StrongSwan.Config.ChildCfg.Overlap
import StrongSwan.Credentials.AuthCfg
import StrongSwan.Credentials.AuthCfg.Equality
import StrongSwan.Credentials.CertCache
import StrongSwan.Credentials.CertCache.Sound
import StrongSwan.Credentials.CredentialManager
import StrongSwan.Credentials.CredentialManager.TrustChain
import StrongSwan.Crypto.Aead
import StrongSwan.Crypto.Crypter
import StrongSwan.Crypto.Hasher
import StrongSwan.Crypto.IvGenSeq
import StrongSwan.Crypto.Prf
import StrongSwan.Crypto.Prf.Stream
import StrongSwan.Crypto.Proposal
import StrongSwan.Crypto.Proposal.Exact
import StrongSwan.Crypto.Proposal.Select
import StrongSwan.Crypto.Proposal.Types
import StrongSwan.Crypto.Rsa
import StrongSwan.Crypto.RsaPkcs1
import StrongSwan.Crypto.RsaPkcs1.Exactness
import StrongSwan.Crypto.RsaPss
import StrongSwan.Crypto.RsaPss.Agreement
import StrongSwan.Encoding.EapPayload
import StrongSwan.Encoding.Encodings
import StrongSwan.Encoding.EncryptedPayload
import StrongSwan.Encoding.Generator
import StrongSwan.Encoding.IkeHeader
import StrongSwan.Encoding.Message
import StrongSwan.Encoding.Message.Defrag
import StrongSwan.Encoding.Message.Fit
import StrongSwan.Encoding.Message.Fragment
import StrongSwan.Encoding.Message.Generate
import StrongSwan.Encoding.Message.Parse
import StrongSwan.Encoding.Message.Protected
import StrongSwan.Encoding.Message.Reassemble
import StrongSwan.Encoding.Message.Unmixed
import StrongSwan.Encoding.Parser
import StrongSwan.Encoding.Parser.Ahead
import StrongSwan.Encoding.Parser.Nesting
import StrongSwan.Encoding.Parser.Rules
import StrongSwan.Encoding.Payload
import StrongSwan.Encoding.ProposalSubstructure
import StrongSwan.Encoding.ProposalSubstructure.Ikev1
import StrongSwan.Encoding.ProposalSubstructure.Layout
import StrongSwan.Encoding.ProposalSubstructure.RoundTrip
import StrongSwan.Encoding.TrafficSelectorSubstructure
import StrongSwan.Ipsec.EspContext
import StrongSwan.Ipsec.EspPacket
import StrongSwan.Ipsec.IpPacket
import StrongSwan.Ipsec.IpPacket.Create
import StrongSwan.Ipsec.IpPacket.Parsing
import StrongSwan.Ipsec.Policy
import StrongSwan.Ipsec.PolicyMgr
import StrongSwan.Ipsec.Processor
import StrongSwan.Ipsec.Processor.Inbound
import StrongSwan.Ipsec.Sa
import StrongSwan.Ipsec.Sa.Expiry
import StrongSwan.Ipsec.SaMgr
import StrongSwan.Ipsec.SaMgr.Checkout
import StrongSwan.Ipsec.SaMgr.Grant
import StrongSwan.Ipsec.SaMgr.Spis
import StrongSwan.Ipsec.SaMgr.Threads
import StrongSwan.Ipsec.SaMgr.Triples
import StrongSwan.Kernel.KernelInterface
import StrongSwan.Kernel.KernelInterface.Reqids
import StrongSwan.Lib.BinaryHeap
import StrongSwan.Lib.BlockStream
import StrongSwan.Lib.Bytes
import StrongSwan.Lib.DepthFirst
import StrongSwan.Lib.Dominance
import StrongSwan.Lib.Enumeration
import StrongSwan.Lib.Gregorian
import StrongSwan.Lib.Handover
import StrongSwan.Lib.KeyMap
import StrongSwan.Lib.Narrowing
import StrongSwan.Lib.Numeral
import StrongSwan.Lib.OnesComplement
import StrongSwan.Lib.Pieces
import StrongSwan.Lib.Prefix
import StrongSwan.Lib.RankedList
import StrongSwan.Lib.Recent
import StrongSwan.Lib.ReplayWindow
import StrongSwan.Lib.Rows
import StrongSwan.Lib.Scan
import StrongSwan.Lib.System
import StrongSwan.Lib.Tracks
import StrongSwan.Lib.Uniform
import StrongSwan.Network.Receiver
import StrongSwan.Network.Receiver.Cookies
import StrongSwan.Networking.Host
import StrongSwan.Plugins.ConstraintsValidator
import StrongSwan.Plugins.ConstraintsValidator.Binding
import StrongSwan.Plugins.ConstraintsValidator.Chain
import StrongSwan.Plugins.Vici.Builder
import StrongSwan.Plugins.Vici.Calls
import StrongSwan.Plugins.Vici.Grammar
import StrongSwan.Plugins.Vici.Lookup
import StrongSwan.Plugins.Vici.Message
import StrongSwan.Plugins.Vici.RoundTrip
import StrongSwan.Processing.Scheduler
import StrongSwan.Processing.Scheduler.Order
import StrongSwan.Processing.Scheduler.Runs
import StrongSwan.Radius.Enumerators
import StrongSwan.Radius.RadiusMessage
import StrongSwan.Radius.RadiusSocket
import StrongSwan.Radius.Sign
import StrongSwan.Radius.Verify
import StrongSwan.Sa.ChildSaManager
import StrongSwan.Sa.ChildSaManager.Index
import StrongSwan.Sa.EapAuthenticator
import StrongSwan.Sa.EapAuthenticator.Client
import StrongSwan.Sa.IkeSa
import StrongSwan.Sa.IkeSaManager
import StrongSwan.Sa.IkeSaManager.Calls
import StrongSwan.Sa.IkeSaManager.Effects
import StrongSwan.Sa.IkeSaManager.HalfOpen
import StrongSwan.Sa.IkeSaManager.InitHash
import StrongSwan.Sa.Ikev1.IvManager
import StrongSwan.Sa.Ikev1.IvManager.Chains
import StrongSwan.Sa.KeymatV2
import StrongSwan.Sa.KeymatV2.Agreement
import StrongSwan.Sa.TaskManagerV2
import StrongSwan.Selectors.Constructors
import StrongSwan.Selectors.Icmp
import StrongSwan.Selectors.Narrow
import StrongSwan.Selectors.Subnet
import StrongSwan.Selectors.TrafficSelector
import StrongSwan.Settings.Lookup
import StrongSwan.Settings.Lookup.Termination
import StrongSwan.Simaka.SimakaMessage
import StrongSwan.Simaka.SimakaMessage.Bounds
import StrongSwan.Simaka.SimakaMessage.Encoded
import StrongSwan.Simaka.SimakaMessage.RoundTrip
import StrongSwan.Tls.Fragmentation
import StrongSwan.Tls.Fragmentation.Flight
import StrongSwan.Tls.Fragmentation.Receive
import StrongSwan.Tls.Fragmentation.Send
import StrongSwan.Tls.Input
import StrongSwan.Tls.Input.Chunking
import StrongSwan.Tls.Protection
import StrongSwan.Tls.Protection.Order
import StrongSwan.Tls.Protection.Sync
import StrongSwan.Tls.TlsAead
import StrongSwan.Tls.TlsEap
import StrongSwan.Tls.TlsEap.Packets
import StrongSwan.Tls.TlsEap.Transport
import StrongSwan.Utils.Align
import StrongSwan.Utils.Chunk
import StrongSwan.Utils.Chunk.Base64
import StrongSwan.Utils.Chunk.Hex
import StrongSwan.Utils.Chunk.RoundTrip
import StrongSwan.Utils.ChunkHash
import StrongSwan.Utils.Identification
import StrongSwan.Utils.Identification.Address
import StrongSwan.Utils.Identification.Atodn
import StrongSwan.Utils.Identification.Equality
import StrongSwan.Utils.Identification.Matching
import StrongSwan.Utils.InternetChecksum
import StrongSwan.Utils.Timeval
