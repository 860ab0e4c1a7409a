import VlanTrunking.Console.Endpoint
import VlanTrunking.Main
import VlanTrunking.Proofs.Agreement
import VlanTrunking.Proofs.Commutation
import VlanTrunking.Proofs.Dispatch
import VlanTrunking.Proofs.Following
import VlanTrunking.Proofs.InformationFlow
import VlanTrunking.Proofs.LifeCycle
import VlanTrunking.Proofs.Passwords
import VlanTrunking.Proofs.Rejection
import VlanTrunking.Proofs.Revision
import VlanTrunking.Proofs.Sessions
import VlanTrunking.Proofs.WellFormedness
import VlanTrunking.Proofs.WireFormat
import VlanTrunking.Proofs.Writing
import VlanTrunking.Proofs.Frame
import VlanTrunking.Proofs.ListGrammar
import VlanTrunking.Proofs.VlanReplies
import VlanTrunking.Proofs.FileSettings
import VlanTrunking.Proofs.GivenOptions
import VlanTrunking.Proofs.SettingSources
import VlanTrunking.Proofs.VlanEdits
import VlanTrunking.Proofs.Repetition
import VlanTrunking.Proofs.Replication
import VlanTrunking.Proofs.StatusReport
import VlanTrunking.Proofs.TableReport
import VlanTrunking.Proofs.PrivateVlans
import VlanTrunking.Proofs.Reachability
import VlanTrunking.Proofs.AddressText
import VlanTrunking.Proofs.BindAddress
import VlanTrunking.Proofs.JsonGrammar
import VlanTrunking.Proofs.RequestKeys
import VlanTrunking.Proofs.TomlLineEnds
import VlanTrunking.Proofs.TomlText
import VlanTrunking.Proofs.TomlOutline
import VlanTrunking.Proofs.PartialFiles
