import FloodGuard.Address
import FloodGuard.Address.Text
import FloodGuard.Api
import FloodGuard.Api.Target
import FloodGuard.Attack
import FloodGuard.Attack.Encoding
import FloodGuard.Attack.Kind
import FloodGuard.Attack.Report
import FloodGuard.Attack.Uuid
import FloodGuard.Ban.List
import FloodGuard.Ban.Policy
import FloodGuard.Calendar
import FloodGuard.Config
import FloodGuard.Config.Encoding
import FloodGuard.Config.Load
import FloodGuard.Config.Toml
import FloodGuard.Config.Tree
import FloodGuard.Detection.Dimension
import FloodGuard.Detection.Encoding
import FloodGuard.Detection.Settings
import FloodGuard.Engine
import FloodGuard.Engine.Announcer
import FloodGuard.Engine.Background
import FloodGuard.Engine.Encoding
import FloodGuard.FlowSpec.Action
import FloodGuard.FlowSpec.Rule
import FloodGuard.HostGroup.Load
import FloodGuard.HostGroup.Table
import FloodGuard.Json
import FloodGuard.Json.Reader
import FloodGuard.Json.Text
import FloodGuard.Json.Token
import FloodGuard.Label
import FloodGuard.Network
import FloodGuard.Network.Block
import FloodGuard.Network.Text
import FloodGuard.Number.Double
import FloodGuard.Number.Positional
import FloodGuard.Number.Rounding
import FloodGuard.Number.Saturating
import FloodGuard.Number.Shortest
import FloodGuard.PrefixTree
import FloodGuard.Session.Endpoint
import FloodGuard.Session.Key
import FloodGuard.Session.Table
import FloodGuard.Text.Blank
import FloodGuard.Text.Numeral
import FloodGuard.Text.Pieces
import FloodGuard.Text.Utf8
import FloodGuard.Traffic.Counters
import FloodGuard.Traffic.Encoding
import FloodGuard.Traffic.Ranking
import FloodGuard.Traffic.Totals
import FloodGuard.Traffic.View
import FloodGuard.Proofs.BanRecords
import FloodGuard.Proofs.CycleSteps
import FloodGuard.Proofs.Runs
import FloodGuard.Proofs.Moves
import FloodGuard.Proofs.AnnouncerAgreement
import FloodGuard.Proofs.Independence
import FloodGuard.Proofs.BanLifetime
import FloodGuard.Proofs.LongestMatch
import FloodGuard.Proofs.Listings
import FloodGuard.Proofs.DetectionDecision
import FloodGuard.Proofs.AnnounceRetry
import FloodGuard.Proofs.PrefixMap
import FloodGuard.Proofs.TableCoherence
import FloodGuard.Proofs.SessionSweep
import FloodGuard.Proofs.SessionLedger
import FloodGuard.Proofs.BanHistory
import FloodGuard.Proofs.NetworkNesting
import FloodGuard.Proofs.CustomerNetwork
import FloodGuard.Proofs.ManualUnban
import FloodGuard.Proofs.Effects
import FloodGuard.Proofs.SteadyCycle
import FloodGuard.Proofs.CycleBalance
import FloodGuard.Proofs.TrafficTotals
import FloodGuard.Proofs.AddressText
import FloodGuard.Proofs.CanonicalNetworks
import FloodGuard.Proofs.NetworkText
import FloodGuard.Proofs.RuleText
import FloodGuard.Proofs.FirstBreach
import FloodGuard.Proofs.StricterDetection
import FloodGuard.Proofs.BanEndpoints
import FloodGuard.Proofs.PathText
import FloodGuard.Proofs.MalformedNetworks
import FloodGuard.Proofs.ReflectorMajority
import FloodGuard.Proofs.RequestedRules
import FloodGuard.Proofs.FloodShare
import FloodGuard.Proofs.Arrangement
import FloodGuard.Proofs.EntityRanking
import FloodGuard.Proofs.LargestSessions
import FloodGuard.Proofs.ConfigRoundTrip
import FloodGuard.Proofs.DistinctNames
import FloodGuard.Proofs.ExactReading
import FloodGuard.Proofs.SettingPaths
import FloodGuard.Proofs.JsonText
import FloodGuard.Proofs.FilledForms
import FloodGuard.Proofs.NearestDouble
import FloodGuard.Proofs.MegabitAccuracy
import FloodGuard.Proofs.LeadingReflector
import FloodGuard.Proofs.DocumentedLibrary
import FloodGuard.Proofs.OverDefaults
import FloodGuard.Proofs.SingleSettings
import FloodGuard.Proofs.SettingOverrides
import FloodGuard.Proofs.LayeredLoading
import FloodGuard.Proofs.CheckTable
