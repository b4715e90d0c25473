import U80211.Lib.Blocks
import U80211.Lib.Lts
import U80211.Lib.Log
import U80211.Lib.Memory
import U80211.Lib.Ownership
import U80211.Lib.Recency
import U80211.Lib.RedBlack
import U80211.Lib.Retransmission
import U80211.Lib.Tlv
import U80211.Lib.Termination
import U80211.Lib.Work
import U80211.Basic
import U80211.Michael
import U80211.Key
import U80211.Packet
import U80211.Association
import U80211.Device
import U80211.Data
import U80211.Management
import U80211.Receive
import U80211.Decoder
import U80211.System
import U80211.KeyStore
import U80211.IntrusiveList
import U80211.KeyMemory
import U80211.RbTree
import U80211.BssCache
import U80211.CacheSystem
import U80211.Requests
import U80211.Transmission
import U80211.RingBuffer
import U80211.Scan
import U80211.Machine
import U80211.Properties.Sections
import U80211.Properties.Effect
import U80211.Properties.Consistency
import U80211.Properties.Cleanup
import U80211.Properties.References
import U80211.Properties.Contexts
import U80211.Properties.Lifetime
import U80211.Properties.Timeouts
import U80211.Properties.Attempts
import U80211.Properties.Waiters
import U80211.Properties.Rest
import U80211.Properties.History
import U80211.Properties.ReceivePath
import U80211.Properties.Decoding
import U80211.Properties.Delivery
import U80211.Properties.Foreign
import U80211.Properties.Keys
import U80211.Properties.TxBuffer
import U80211.Properties.HeaderCodec
import U80211.Properties.InformationElements
import U80211.Properties.Transmit
import U80211.Properties.KeyEffect
import U80211.Properties.KeyHistory
import U80211.Properties.KeyCalls
import U80211.Properties.PacketNumbers
import U80211.Properties.Rekeying
import U80211.Properties.Roundtrip
import U80211.Properties.KeyLookups
import U80211.Properties.Channel
import U80211.Properties.IntrusiveList
import U80211.Properties.ListSequences
import U80211.Properties.KeyMap
import U80211.Properties.MichaelReference
import U80211.Properties.RbMemory
import U80211.Properties.RbWalk
import U80211.Properties.RbSearch
import U80211.Properties.RbInsert
import U80211.Properties.RbRemove
import U80211.Properties.RingQueue
import U80211.Properties.Records
import U80211.Properties.Requests
import U80211.Properties.Ssid
import U80211.Properties.Transmission
import U80211.Properties.CacheOps
import U80211.Properties.CacheMap
import U80211.Properties.CacheEntries
import U80211.Properties.Cleartext
import U80211.Properties.MachineEffect
import U80211.Properties.ScanOwner
import U80211.Properties.ScanLife
import U80211.Properties.ScanRecords
import U80211.Properties.ScanReports
import U80211.Properties.MachineMemory
import U80211.Properties.MachineRest
import U80211.Properties.Tuning
import U80211.Properties.ScanSweep
import U80211.Properties.Unregister
import U80211.Link
import U80211.Properties.Link
import U80211.Properties.Retransmissions
import U80211.Kernel
import U80211.Properties.Kernel
import U80211.Properties.KernelWork
import U80211.Resources
import U80211.Properties.Resources
