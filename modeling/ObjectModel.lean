import ObjectModel.Proofs.Pairing.Alike
import ObjectModel.Proofs.Reading
import ObjectModel.Script.Session
import ObjectModel.Settings.Writer
import ObjectModel.Value.Parts
import ObjectModel.Proofs.Pairing.Act
import ObjectModel.Proofs.Pairing.Call
import ObjectModel.Proofs.Pairing.Script
import ObjectModel.Proofs.Pairing.Session
import ObjectModel.Proofs.Registry
import ObjectModel.Proofs.Renumbering
import ObjectModel.Proofs.Asking.Act
import ObjectModel.Proofs.Asking.Script
import ObjectModel.Proofs.Registration
import ObjectModel.Proofs.Identity
import ObjectModel.Proofs.FirstOccurrence
import ObjectModel.Proofs.Starting
import ObjectModel.Proofs.Enumeration
import ObjectModel.Proofs.Builtins
import ObjectModel.Proofs.Pairing.Since
import ObjectModel.Proofs.Commuting
import ObjectModel.Proofs.RoundTrip.Settings
import ObjectModel.Proofs.Reporting.Act
import ObjectModel.Proofs.Reporting.Script
import ObjectModel.Proofs.Reporting.Written
import ObjectModel.Proofs.FailedLookups
import ObjectModel.Proofs.RegistrationLog
import ObjectModel.Proofs.Verbosity
import ObjectModel.Proofs.Construction
import ObjectModel.Proofs.KeyedLookup
import ObjectModel.Proofs.Conversion
import ObjectModel.Proofs.Uniformity
import ObjectModel.Proofs.Binding
import ObjectModel.Proofs.Rereading
import ObjectModel.Proofs.DistinctKeys
import ObjectModel.Proofs.LevelGrammar
import ObjectModel.Proofs.PartialEquivalence
import ObjectModel.Proofs.Decoding
import ObjectModel.Proofs.Refusals
import ObjectModel.Proofs.Namespaces
import ObjectModel.Proofs.DebugText
import ObjectModel.Proofs.LogLines
import ObjectModel.Proofs.HostNumbers
import ObjectModel.Proofs.Passes
