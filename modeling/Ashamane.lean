import Ashamane.Lib.Run
import Ashamane.Lib.Assoc
import Ashamane.Guilds.RankRuns
import Ashamane.Guilds.Leader
import Ashamane.Battlegrounds.RatedArena
import Ashamane.Looting.HandOut
import Ashamane.Looting.CounterRun
import Ashamane.Looting.Stacks
import Ashamane.Looting.Templates
import Ashamane.Looting.References
import Ashamane.Looting.TemplateConditions
import Ashamane.Auctions.Money
import Ashamane.DungeonFinding.Basic
import Ashamane.DungeonFinding.FindGroups
import Ashamane.DungeonFinding.Manager
import Ashamane.DungeonFinding.Matched
import Ashamane.DungeonFinding.MatchedRun
import Ashamane.Battlegrounds.Lists
import Ashamane.Battlegrounds.Membership
import Ashamane.Battlegrounds.Fill
import Ashamane.DungeonQueue.Basic
import Ashamane.DungeonQueue.Consistent
import Ashamane.DungeonQueue.Refined
import Ashamane.Events.EventMap
import Ashamane.Events.Groups
import Ashamane.Events.Phases
import Ashamane.Groups.Basic
import Ashamane.Garrisons.Runs
import Ashamane.Groups.SubGroups
import Ashamane.Guilds.BankMoney
import Ashamane.Guilds.EventLog
import Ashamane.Lib.BitStream
import Ashamane.Packets.Writer
import Ashamane.Packets.RoundTrip
import Ashamane.Packets.Packed
import Ashamane.Packets.Guid
import Ashamane.Packets.PutBits
import Ashamane.Pools.Basic
import Ashamane.Pools.Exact
import Ashamane.Pools.Spawn
import Ashamane.Pools.Respawn
import Ashamane.Pools.Quests
import Ashamane.Inventory.CanStore
import Ashamane.Inventory.CanStoreSound
import Ashamane.Inventory.Search
import Ashamane.Rolls.Leaving
import Ashamane.DungeonFinding.Join
import Ashamane.DungeonFinding.RemoveProposal
import Ashamane.DungeonFinding.Dungeons
import Ashamane.DungeonFinding.CheckGroupRoles
import Ashamane.Tasks.Asyncs
import Ashamane.Tasks.Ordered
import Ashamane.BasicEvents.Updates
import Ashamane.Pools.Orders
import Ashamane.GameEvents.Undo
import Ashamane.Instances.FreshIds
import Ashamane.Instances.Bitmap
import Ashamane.Threat.Defined
import Ashamane.Threat.Ruled
import Ashamane.Inventory.Destroy
import Ashamane.Sockets.Cuts
import Ashamane.Sockets.Sent
import Ashamane.Reputation.Manager
import Ashamane.Reputation.Counted
import Ashamane.Reputation.Changes
import Ashamane.Reputation.Loaded
import Ashamane.Reputation.Saved
import Ashamane.Spells.Pointers
import Ashamane.Calendar.Ids
import Ashamane.Updater.Recorded
import Ashamane.BlackMarket.Bids
import Ashamane.Trading.Agreed
import Ashamane.Phasing.Agree
import Ashamane.Quests.Gathered
import Ashamane.Resets.Runs
import Ashamane.DamageEvents.Delivered
import Ashamane.BattlePets.Saved
import Ashamane.Binds.Resets
import Ashamane.Channels.Runs
import Ashamane.Conditions.Ends
import Ashamane.Conditions.Searched
import Ashamane.Lib.Polling
import Ashamane.GameEvents.Delays
import Ashamane.Resets.Loading
import Ashamane.BlackMarket.Rows
import Ashamane.Spells.Lookups
import Ashamane.Spells.Expiry
import Ashamane.Spells.Duel
import Ashamane.Spells.Charges
import Ashamane.Reputation.Relogged
import Ashamane.PhaseShifts.Changed
import Ashamane.PhaseShifts.Seen
import Ashamane.GuildFinder.Reloaded
import Ashamane.Achievements.Grown
import Ashamane.Achievements.Expired
import Ashamane.Scenarios.Completed
import Ashamane.Archaeology.Completed
import Ashamane.DungeonQueue.WaitTimes
import Ashamane.Battlegrounds.WaitTimes
import Ashamane.Garrisons.FollowerXP
import Ashamane.Accounts.Permissions
import Ashamane.Taxi.Routes
import Ashamane.GarrisonTables.Relogged
